import BoxRegistry.Time.Calendar

namespace BoxRegistry.Time

/--
Where a day lies in an era of 400 years that begins in March: within a century, an olympiad of four years and a year.
Only the last year of an olympiad has a leap day, and the last olympiad of a century only if the century is the last.
-/
structure Within (dayOfEra century olympiad year day : Int) : Prop where
  century_le : 0 ≤ century ∧ century ≤ 3
  olympiad_le : 0 ≤ olympiad ∧ olympiad ≤ 24
  year_le : 0 ≤ year ∧ year ≤ 3
  day_le : 0 ≤ day ∧ day ≤ 365
  sum : dayOfEra = 36524 * century + 1461 * olympiad + 365 * year + day
  leap : day = 365 → year = 3 ∧ (olympiad = 24 → century = 3)

theorem exists_within {d : Int} (h : 0 ≤ d ∧ d < 146097) : ∃ c o y n, Within d c o y n := by
  obtain ⟨c, hc, hcentury⟩ : ∃ c, (0 ≤ c ∧ c ≤ 3) ∧ 36524 * c ≤ d ∧ (d < 36524 * (c + 1) ∨ c = 3) := by
    refine ⟨if d = 146096 then 3 else d / 36524, ?_⟩
    split <;> omega
  obtain ⟨o, ho, holympiad⟩ : ∃ o, (0 ≤ o ∧ o ≤ 24) ∧ 1461 * o ≤ d - 36524 * c ∧ d - 36524 * c < 1461 * (o + 1) :=
    ⟨(d - 36524 * c) / 1461, by omega⟩
  generalize hrest : d - 36524 * c - 1461 * o = rest
  obtain ⟨y, hy, hyear⟩ : ∃ y, (0 ≤ y ∧ y ≤ 3) ∧ 365 * y ≤ rest ∧ (rest < 365 * (y + 1) ∨ y = 3) := by
    refine ⟨if rest = 1460 then 3 else rest / 365, ?_⟩
    split <;> omega
  exact ⟨c, o, y, rest - 365 * y, hc, ho, hy, by omega, by omega, by omega⟩

namespace Within

variable {d c o y n : Int}

theorem yearOfEra (h : Within d c o y n) : (d - d / 1460 + d / 36524 - d / 146096) / 365 = 100 * c + 4 * o + y := by
  rcases h with ⟨hc, ho, hy, hn, hsum, hleap⟩
  have hcentury : d / 36524 - d / 146096 = c := by
    rcases (by omega : c = 0 ∨ c = 1 ∨ c = 2 ∨ c = 3) with rfl | rfl | rfl | rfl <;> omega
  have holympiad : d / 1460 = 25 * c + o ∨ d / 1460 = 25 * c + o + 1 ∧ 0 < n := by omega
  omega

theorem dayOfYear (h : Within d c o y n)
    : d - (365 * (100 * c + 4 * o + y) + (100 * c + 4 * o + y) / 4 - (100 * c + 4 * o + y) / 100) = n := by
  rcases h with ⟨hc, ho, hy, hn, hsum, hleap⟩
  omega

theorem isLeapYear (h : Within d c o y n) (hn : n = 365) (era : Int)
    : isLeapYear (100 * c + 4 * o + y + era * 400 + 1) = true := by
  rcases h with ⟨hc, ho, hy, -, hsum, hleap⟩
  rcases hleap hn with ⟨rfl, hlast⟩
  simp only [Time.isLeapYear, Bool.and_eq_true, Bool.or_eq_true, decide_eq_true_eq]
  omega

end Within

def afterMarch (year day : Int) : Date :=
  let monthFromMarch := (5 * day + 2) / 153
  let month := if monthFromMarch < 10 then monthFromMarch + 3 else monthFromMarch - 9
  { year := if month ≤ 2 then year + 1 else year, month := month.toNat,
    day := (day - (153 * monthFromMarch + 2) / 5 + 1).toNat }

theorem year_afterMarch (year day : Int)
    : (afterMarch year day).year = year ∨ (afterMarch year day).year = year + 1 := by
  dsimp only [afterMarch]
  generalize (if (5 * day + 2) / 153 < 10 then (5 * day + 2) / 153 + 3 else (5 * day + 2) / 153 - 9) = month
  by_cases hlate : month ≤ 2
  . exact .inr (if_pos hlate)
  . exact .inl (if_neg hlate)

theorem ofDays_eq (days : Int)
    : ∃ c o y n, Within ((days + 719468) % 146097) c o y n
        ∧ Date.ofDays days = afterMarch (100 * c + 4 * o + y + (days + 719468) / 146097 * 400) n := by
  rcases exists_within (d := (days + 719468) % 146097) (by omega) with ⟨c, o, y, n, h⟩
  refine ⟨c, o, y, n, h, ?_⟩
  simp only [Date.ofDays, h.yearOfEra, h.dayOfYear, afterMarch]

section AfterMarch

variable {year day : Int} (hday : 0 ≤ day ∧ day ≤ 365)
include hday

theorem afterMarch_eq (year : Int)
    : ∃ m d : Nat, (5 * day + 2) / 153 = m ∧ (153 * m + 2) / 5 + (d : Int) = day + 1 ∧ m ≤ 11 ∧ 1 ≤ d
        ∧ afterMarch year day = if m < 10 then ⟨year, m + 3, d⟩ else ⟨year + 1, m - 9, d⟩ := by
  obtain ⟨m, hm⟩ : ∃ m : Nat, (5 * day + 2) / 153 = m := ⟨((5 * day + 2) / 153).toNat, by omega⟩
  refine ⟨m, (day - (153 * m + 2) / 5 + 1).toNat, hm, by omega, by omega, by omega, ?_⟩
  simp only [afterMarch, hm]
  by_cases hlate : m < 10
  . simp only [if_pos (show (m : Int) < 10 by omega), if_pos hlate, if_neg (show ¬(m : Int) + 3 ≤ 2 by omega)]
    rfl
  . simp only [if_neg (show ¬(m : Int) < 10 by omega), if_neg hlate, if_pos (show (m : Int) - 9 ≤ 2 by omega),
      show ((m : Int) - 9).toNat = m - 9 by omega]

theorem toDays_afterMarch
    : (afterMarch year day).toDays
        =
      year / 400 * 146097 + (year % 400 * 365 + year % 400 / 4 - year % 400 / 100 + day) - 719468 := by
  rcases afterMarch_eq hday year with ⟨m, d, -, hd, hm, -, heq⟩
  rw [heq]
  by_cases hlate : m < 10
  . have hback : (((m + 3 : Nat) : Int) + 9) % 12 = m := by omega
    rw [if_pos hlate]
    simp only [Date.toDays, hback]
    rw [if_neg (by omega)]
    omega
  . have hback : (((m - 9 : Nat) : Int) + 9) % 12 = m := by omega
    rw [if_neg hlate]
    simp only [Date.toDays, hback]
    rw [if_pos (by omega), Int.add_sub_cancel]
    omega

theorem exists_afterMarch (hleap : day = 365 → isLeapYear (year + 1) = true)
    : (afterMarch year day).exists? = true := by
  rcases afterMarch_eq hday year with ⟨m, d, hm, hd, hlast, hone, heq⟩
  have hlength : d ≤ daysInMonth (if m < 10 then year else year + 1) (if m < 10 then m + 3 else m - 9) := by
    have hcases : m = 0 ∨ m = 1 ∨ m = 2 ∨ m = 3 ∨ m = 4 ∨ m = 5 ∨ m = 6 ∨ m = 7 ∨ m = 8 ∨ m = 9 ∨ m = 10 ∨ m = 11 := by
      omega
    rcases hcases with rfl | rfl | rfl | rfl | rfl | rfl | rfl | rfl | rfl | rfl | rfl | rfl
    case inr.inr.inr.inr.inr.inr.inr.inr.inr.inr.inr =>
      -- Only February is not as long in every year.
      by_cases hn : day = 365
      . simp only [daysInMonth, hleap hn, if_true, show ¬(11 < 10) by decide, if_false]
        omega
      . refine Nat.le_trans (show d ≤ 28 by omega) ?_
        simp only [daysInMonth, show ¬(11 < 10) by decide, if_false]
        split <;> decide
    all_goals
      first
      | exact show d ≤ 30 by omega
      | exact show d ≤ 31 by omega
  rw [heq]
  by_cases hlate : m < 10
  . simp only [if_pos hlate] at hlength ⊢
    simp only [Date.exists?, Bool.and_eq_true, decide_eq_true_eq]
    omega
  . simp only [if_neg hlate] at hlength ⊢
    simp only [Date.exists?, Bool.and_eq_true, decide_eq_true_eq]
    omega

end AfterMarch

@[simp]
theorem toDays_ofDays (days : Int) : (Date.ofDays days).toDays = days := by
  rcases ofDays_eq days with ⟨c, o, y, n, h, heq⟩
  have hyear : 0 ≤ 100 * c + 4 * o + y ∧ 100 * c + 4 * o + y < 400 := by
    rcases h with ⟨hc, ho, hy, hn, hsum, hleap⟩
    omega
  have hday := h.dayOfYear
  rw [heq, toDays_afterMarch h.day_le]
  generalize 100 * c + 4 * o + y = yearOfEra at *
  rw [Int.add_mul_ediv_right _ _ (by decide), Int.add_mul_emod_self_right, Int.ediv_eq_zero_of_lt hyear.1 hyear.2,
    Int.emod_eq_of_lt hyear.1 hyear.2]
  omega

theorem exists_ofDays (days : Int) : (Date.ofDays days).exists? = true := by
  rcases ofDays_eq days with ⟨c, o, y, n, h, heq⟩
  rw [heq]
  exact exists_afterMarch h.day_le fun hn => h.isLeapYear hn _

end BoxRegistry.Time
