import BoxRegistry.Proofs.Numeric.Decimal
import BoxRegistry.Proofs.Time.Calendar

namespace BoxRegistry.Time

open Numeric
open Text (dropBlanks isBlankChar)

/--
A moment that has a text: one in a year that can be told, which is in a leap second only at the end of a minute.
-/
structure Moment.Expressible (m : Moment) : Prop where
  year : Rfc3339.yearAllowed (Date.ofDays (m.seconds / 86400)).year = true
  nanos : m.nanos < 1000000000 ∨ m.seconds % 60 = 59 ∧ m.nanos < 2000000000

theorem Moment.expressible_of_seconds {m : Moment} (h : -62167219200 ≤ m.seconds ∧ m.seconds < 253402300800)
    (hnanos : m.nanos < 1000000000) : m.Expressible where
  year := by
    rcases ofDays_eq (m.seconds / 86400) with ⟨c, o, y, n, ⟨hc, ho, hy, -, -, -⟩, heq⟩
    have hyear := year_afterMarch (100 * c + 4 * o + y + (m.seconds / 86400 + 719468) / 146097 * 400) n
    rw [heq, Rfc3339.yearAllowed, Bool.and_eq_true, decide_eq_true_eq, decide_eq_true_eq, Rfc3339.yearRange]
    omega
  nanos := .inl hnanos

namespace Rfc3339

theorem dropBlanks_cons {c : Char} (h : isBlankChar c = false) (cs : List Char) : dropBlanks (c :: cs) = c :: cs := by
  simp [dropBlanks, h]

theorem isBlankChar_of_isDigit {c : Char} (h : c.isDigit = true) : isBlankChar c = false := by
  have hbounds := digit_bounds h
  have hzero : '0'.toNat = 48 := rfl
  have hnine : '9'.toNat = 57 := rfl
  simp only [isBlankChar, Text.blankRanges, List.any_cons, List.any_nil, Bool.or_false, Bool.or_eq_false_iff,
    Bool.and_eq_false_iff, decide_eq_false_iff_not]
  omega

section Written

variable {rest : List Char}

theorem padded_cons (width n : Nat) : ∃ c cs, (padded width n).toList = c :: cs ∧ c.isDigit = true := by
  rcases hcs : (padded width n).toList with - | ⟨c, cs⟩
  . rw [toList_padded] at hcs
    exact absurd (List.append_eq_nil_iff.mp hcs).2 Nat.toDigits_ne_nil
  . exact ⟨c, cs, rfl, (decimal_padded width n).isDigit c (by rw [hcs]; exact List.mem_cons_self)⟩

theorem padded_ne_nil (width n : Nat) : (padded width n).toList ≠ [] := by
  rcases padded_cons width n with ⟨c, cs, htext, -⟩
  rw [htext]
  exact List.cons_ne_nil c cs

theorem part?_written {n : Nat} (h : n < 100) (rest : List Char)
    : part? ((padded 2 n).toList ++ rest) = some (n, rest) := by
  have hread := number?_append rest (decimal_padded 2 n) (padded_ne_nil 2 n)
    (.inl (length_padded (by decide) h))
  rcases padded_cons 2 n with ⟨c, cs, htext, hdigit⟩
  rw [htext, List.cons_append] at hread ⊢
  rw [part?, dropBlanks_cons (isBlankChar_of_isDigit hdigit), hread]

theorem separator?_written {c : Char} (h : isBlankChar c = false) (rest : List Char)
    : separator? c (c :: rest) = some rest := by
  rw [separator?, dropBlanks_cons h]
  exact if_pos rfl

theorem number?_all {cs : List Char} {n : Nat} (h : Decimal cs n) (hne : cs ≠ []) (hrest : NoDigit rest)
    : number? (cs ++ rest).length (cs ++ rest) = some (n, rest) :=
  number?_append rest h hne (.inr ⟨by simp, hrest⟩)

theorem year?_of_isDigit {c : Char} (h : c.isDigit = true) (cs : List Char)
    : year? (c :: cs) = (number? 4 (c :: cs)).map fun read => ((read.1 : Int), read.2) := by
  rw [year?, dropBlanks_cons (isBlankChar_of_isDigit h)]
  split
  case h_3 => rfl
  all_goals
    next hcons =>
      rw [(List.cons.inj hcons).1] at h
      exact absurd h (by decide)

theorem year?_written (year : Int) (rest : List Char)
    : year? ((yearText year).toList ++ '-' :: rest) = some (year, '-' :: rest) := by
  have hminus : NoDigit ('-' :: rest) := noDigit_cons rfl
  unfold yearText
  split
  . next hrange =>
    have hread := number?_append ('-' :: rest) (decimal_padded 4 year.natAbs) (padded_ne_nil 4 _)
      (.inl (length_padded (by decide) (show year.natAbs < 10 ^ 4 by omega)))
    have habs : (year.natAbs : Int) = year := by omega
    rcases padded_cons 4 year.natAbs with ⟨c, cs, htext, hdigit⟩
    rw [htext, List.cons_append] at hread ⊢
    rw [year?_of_isDigit hdigit, hread, Option.map_some, habs]
  . split
    . have hread := number?_all (decimal_padded 4 year.natAbs) (padded_ne_nil 4 _) hminus
      have habs : -(year.natAbs : Int) = year := by omega
      rw [String.toList_append, List.append_assoc, show "-".toList = ['-'] from rfl, List.singleton_append, year?,
        dropBlanks_cons (by decide)]
      simp only [hread, Option.map_some, habs]
    . have hread := number?_all (decimal_toDigits year.natAbs) Nat.toDigits_ne_nil hminus
      have habs : (year.natAbs : Int) = year := by omega
      rw [String.toList_append, toList_toString, List.append_assoc, show "+".toList = ['+'] from rfl,
        List.singleton_append, year?, dropBlanks_cons (by decide)]
      simp only [hread, Option.map_some, habs]

theorem fraction?_point {width n : Nat} (hwidth : 0 < width ∧ width ≤ 9) (h : n < 10 ^ width) (hrest : NoDigit rest)
    : fraction? ('.' :: ((padded width n).toList ++ rest)) = some (n * Nat.pow 10 (9 - width), rest) := by
  have hlength := length_padded hwidth.1 h
  have hread : number? 9 ((padded width n).toList ++ rest) = some (n, rest) :=
    number?_append rest (decimal_padded width n) (padded_ne_nil width n) (.inr ⟨by omega, hrest⟩)
  have hdrop : rest.dropWhile Char.isDigit = rest := by
    cases rest with
    | nil => rfl
    | cons c rest => rw [List.dropWhile_cons_of_neg (by simp [hrest c rest rfl])]
  rw [fraction?, hread, Option.bind_eq_bind, Option.bind_some]
  simp only [List.length_append, hlength, Nat.add_sub_cancel, hdrop, Option.pure_def]

theorem fraction?_written {nanos : Nat} (h : nanos < 1000000000) (hrest : NoDigit rest)
    (hpoint : ∀ cs, rest ≠ '.' :: cs)
    : fraction? ((fractionText nanos).toList ++ rest) = some (nanos, rest) := by
  have hdot (text : String) : ("." ++ text).toList ++ rest = '.' :: (text.toList ++ rest) := by simp
  unfold fractionText
  split
  . next hzero =>
    rw [hzero, String.toList_empty, List.nil_append, fraction?.eq_def]
    split
    . exact absurd rfl (hpoint _)
    . rfl
  . split
    . next hmillis =>
      rw [hdot, fraction?_point (by decide) (show nanos / 1000000 < 10 ^ 3 by omega) hrest,
        show nanos / 1000000 * Nat.pow 10 (9 - 3) = nanos from Nat.div_mul_cancel (Nat.dvd_of_mod_eq_zero hmillis)]
    . split
      . next hmicros =>
        rw [hdot, fraction?_point (by decide) (show nanos / 1000 < 10 ^ 6 by omega) hrest,
          show nanos / 1000 * Nat.pow 10 (9 - 6) = nanos from Nat.div_mul_cancel (Nat.dvd_of_mod_eq_zero hmicros)]
      . rw [hdot, fraction?_point (by decide) (show nanos < 10 ^ 9 by omega) hrest,
          show nanos * Nat.pow 10 (9 - 9) = nanos from Nat.mul_one nanos]

theorem date_lt {date : Date} (h : date.exists? = true) : date.month < 100 ∧ date.day < 100 := by
  simp only [Date.exists?, Bool.and_eq_true, decide_eq_true_eq] at h
  have hdays : daysInMonth date.year date.month ≤ 31 := by
    unfold daysInMonth
    split
    . split <;> decide
    all_goals decide
  omega

theorem date?_written {date : Date} (h : date.exists? = true) (rest : List Char)
    : date? ((yearText date.year).toList ++ '-' :: ((padded 2 date.month).toList
        ++ '-' :: ((padded 2 date.day).toList ++ rest)))
        =
      some (date, rest) := by
  have hminus : isBlankChar '-' = false := by decide
  simp only [date?, year?_written, Option.bind_eq_bind, Option.bind_some, separator?_written hminus,
    part?_written (date_lt h).1, part?_written (date_lt h).2, Option.pure_def]

theorem clock?_written {clock : Clock} (h : clock.exists? = true) (hnanos : clock.nanos < 1000000000)
    (hrest : NoDigit rest) (hpoint : ∀ cs, rest ≠ '.' :: cs)
    : clock? ((padded 2 clock.hour).toList ++ ':' :: ((padded 2 clock.minute).toList
        ++ ':' :: ((padded 2 clock.second).toList ++ ((fractionText clock.nanos).toList ++ rest))))
        =
      some (clock, rest) := by
  have hcolon : isBlankChar ':' = false := by decide
  simp only [Clock.exists?, Bool.and_eq_true, decide_eq_true_eq] at h
  simp only [clock?, Option.bind_eq_bind, Option.bind_some, separator?_written hcolon,
    part?_written (show clock.hour < 100 by omega), part?_written (show clock.minute < 100 by omega),
    part?_written (show clock.second < 100 by omega), fraction?_written hnanos hrest hpoint, Option.pure_def]

end Written

def clockOf (m : Moment) : Clock where
  hour := (m.seconds % 86400).toNat / 3600
  minute := (m.seconds % 86400).toNat / 60 % 60
  second := (m.seconds % 86400).toNat % 60 + m.nanos / 1000000000
  nanos := m.nanos % 1000000000

theorem toList_render (m : Moment)
    : (render m).toList
        =
      (yearText (Date.ofDays (m.seconds / 86400)).year).toList
        ++ '-' :: ((padded 2 (Date.ofDays (m.seconds / 86400)).month).toList
        ++ '-' :: ((padded 2 (Date.ofDays (m.seconds / 86400)).day).toList
        ++ 'T' :: ((padded 2 (clockOf m).hour).toList
        ++ ':' :: ((padded 2 (clockOf m).minute).toList
        ++ ':' :: ((padded 2 (clockOf m).second).toList
        ++ ((fractionText (clockOf m).nanos).toList ++ ['Z'])))))) := by
  simp [render, clockOf]

theorem clockOf_exists {m : Moment} (h : m.Expressible) : (clockOf m).exists? = true := by
  have hnanos := h.nanos
  have hhour : (clockOf m).hour < 24 := by
    dsimp only [clockOf]
    omega
  have hminute : (clockOf m).minute < 60 := Nat.mod_lt _ (by decide)
  have hsecond : (clockOf m).second ≤ 60 := by
    dsimp only [clockOf]
    omega
  simp only [Clock.exists?, hhour, hminute, hsecond, decide_true, Bool.and_self]

theorem moment_clockOf {m : Moment} (h : m.Expressible)
    : moment (Date.ofDays (m.seconds / 86400)) (clockOf m) 0 = m := by
  have hnanos := h.nanos
  rcases m with ⟨seconds, nanos⟩
  dsimp only [moment, clockOf] at hnanos ⊢
  rw [toDays_ofDays, Moment.mk.injEq]
  constructor
  . omega
  . split <;> omega

theorem parse?_render {m : Moment} (h : m.Expressible) : parse? (render m) = some m := by
  have hdate := exists_ofDays (m.seconds / 86400)
  have hclock := clockOf_exists h
  have hnanos : (clockOf m).nanos < 1000000000 := Nat.mod_lt m.nanos (by decide)
  have hZ : NoDigit ['Z'] := noDigit_cons rfl
  rw [parse?, toList_render, date?_written hdate]
  simp only [clockMark?, Option.bind_eq_bind, Option.bind_some, clock?_written hclock hnanos hZ (by simp),
    show offset? (dropBlanks ['Z']) = some (0, []) from rfl, moment_clockOf h]
  rw [if_pos ⟨rfl, h.year, hdate, hclock, by decide⟩, if_pos h.year]

section Read

theorem ofDigitChars_lt {cs : List Char} (h : ∀ c ∈ cs, c.isDigit = true) (init : Nat)
    : Nat.ofDigitChars 10 cs init < (init + 1) * 10 ^ cs.length := by
  induction cs generalizing init with
  | nil => simp
  | cons c cs ih =>
    have hbounds := digit_bounds (h c List.mem_cons_self)
    have hzero : '0'.toNat = 48 := rfl
    have hnine : '9'.toNat = 57 := rfl
    rw [Nat.ofDigitChars_cons, List.length_cons, Nat.pow_succ']
    calc Nat.ofDigitChars 10 cs (10 * init + (c.toNat - '0'.toNat))
        < (10 * init + (c.toNat - '0'.toNat) + 1) * 10 ^ cs.length := ih (fun c hc => h c (List.mem_cons_of_mem _ hc)) _
      _ ≤ (10 * (init + 1)) * 10 ^ cs.length := Nat.mul_le_mul_right _ (by omega)
      _ = (init + 1) * (10 * 10 ^ cs.length) := by rw [Nat.mul_comm 10, Nat.mul_assoc]

theorem number?_lt {most n : Nat} {cs rest : List Char} (h : number? most cs = some (n, rest))
    : n < 10 ^ (cs.length - rest.length) ∧ cs.length - rest.length ≤ most := by
  simp only [number?] at h
  split at h
  . cases h
  . cases h
    generalize hds : (cs.take most).takeWhile Char.isDigit = ds
    have hdigit : ∀ c ∈ ds, c.isDigit = true := fun c hc => List.mem_takeWhile_imp (hds ▸ hc)
    have hprefix : ds.length ≤ (cs.take most).length := hds ▸ (List.takeWhile_prefix _).length_le
    have hvalue : ds.foldl (fun n c => n * 10 + (c.toNat - '0'.toNat)) 0 = Nat.ofDigitChars 10 ds 0 := by
      rw [Nat.ofDigitChars_eq_foldl]
      simp only [Nat.mul_comm]
    rw [List.length_take] at hprefix
    rw [List.length_drop, show cs.length - (cs.length - ds.length) = ds.length by omega, hvalue]
    exact ⟨by simpa using ofDigitChars_lt hdigit 0, by omega⟩

theorem fraction?_lt {n : Nat} {cs rest : List Char} (h : fraction? cs = some (n, rest)) : n < 1000000000 := by
  unfold fraction? at h
  split at h
  . next cs =>
    simp only [Option.bind_eq_bind, Option.bind_eq_some_iff, Option.pure_def, Option.some.injEq, Prod.mk.injEq] at h
    rcases h with ⟨⟨k, after⟩, hread, hn, -⟩
    rcases number?_lt hread with ⟨hlt, hle⟩
    calc n = k * 10 ^ (9 - (cs.length - after.length)) := hn.symm
      _ < 10 ^ (cs.length - after.length) * 10 ^ (9 - (cs.length - after.length)) :=
        Nat.mul_lt_mul_of_pos_right hlt (Nat.pow_pos (by decide))
      _ = 1000000000 := by
        rw [← Nat.pow_add, Nat.add_sub_cancel' hle]
  . cases h
    decide

theorem clockOffset?_mod {n : Nat} {cs rest : List Char} (h : clockOffset? cs = some (n, rest)) : n % 60 = 0 := by
  simp only [clockOffset?, Option.bind_eq_bind, Option.bind_eq_some_iff] at h
  rcases h with ⟨⟨hours, cs'⟩, -, ⟨minutes, cs''⟩, -, h⟩
  split at h
  . cases h
    dsimp only
    omega
  . cases h

theorem offset?_mod {offset : Int} {cs rest : List Char} (h : offset? cs = some (offset, rest)) : offset % 60 = 0 := by
  unfold offset? at h
  split at h
  case h_6 =>
    split at h <;> cases h
    rfl
  case h_7 => cases h
  case h_1 | h_2 =>
    cases h
    rfl
  all_goals
    rcases Option.map_eq_some_iff.mp h with ⟨read, hread, heq⟩
    cases heq
    have hmod := clockOffset?_mod hread
    omega

theorem clock?_nanos {clock : Clock} {cs rest : List Char} (h : clock? cs = some (clock, rest))
    : clock.nanos < 1000000000 := by
  simp only [clock?, Option.bind_eq_bind, Option.bind_eq_some_iff] at h
  rcases h with ⟨⟨hour, cs₁⟩, -, cs₂, -, ⟨minute, cs₃⟩, -, cs₄, -, ⟨second, cs₅⟩, -, ⟨nanos, cs₆⟩, hnanos, h⟩
  cases h
  exact fraction?_lt hnanos

theorem expressible_moment {date : Date} {clock : Clock} {offset : Int} (hoffset : offset % 60 = 0)
    (hnanos : clock.nanos < 1000000000)
    (hyear : yearAllowed (Date.ofDays ((moment date clock offset).seconds / 86400)).year = true)
    : (moment date clock offset).Expressible where
  year := hyear
  nanos := by
    dsimp only [moment]
    split
    . next hleap =>
      right
      rw [hleap]
      omega
    . exact .inl hnanos

theorem expressible_of_parse? {text : String} {m : Moment} (h : parse? text = some m) : m.Expressible := by
  simp only [parse?, Option.bind_eq_bind, Option.bind_eq_some_iff] at h
  rcases h with ⟨⟨date, cs₁⟩, -, cs₂, -, ⟨clock, cs₃⟩, hclock, ⟨offset, cs₄⟩, hoffset, h⟩
  split at h
  . split at h
    . next hyear =>
      cases h
      exact expressible_moment (offset?_mod hoffset) (clock?_nanos hclock) hyear
    . cases h
  . cases h

end Read

end Rfc3339

end BoxRegistry.Time
