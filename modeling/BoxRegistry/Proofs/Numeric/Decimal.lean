import BoxRegistry.Json.Reader
import BoxRegistry.Time.Rfc3339
import Mathlib.Algebra.Group.Nat.Defs
import Mathlib.Data.List.TakeDrop
import Mathlib.Data.List.TakeWhile

namespace BoxRegistry.Numeric

structure Decimal (cs : List Char) (n : Nat) : Prop where
  isDigit : ∀ c ∈ cs, c.isDigit = true
  value : Nat.ofDigitChars 10 cs 0 = n

def NoDigit (cs : List Char) : Prop :=
  ∀ c rest, cs = c :: rest → c.isDigit = false

theorem noDigit_cons {c : Char} {cs : List Char} (h : c.isDigit = false) : NoDigit (c :: cs) := by
  intro c' rest hcons
  cases hcons
  exact h

theorem digit_bounds {c : Char} (h : c.isDigit = true) : '0'.toNat ≤ c.toNat ∧ c.toNat ≤ '9'.toNat := by
  simpa [Char.isDigit, UInt32.le_iff_toNat_le] using h

theorem decimal_toDigits (n : Nat) : Decimal (Nat.toDigits 10 n) n where
  isDigit _ hc := Nat.isDigit_of_mem_toDigits (by decide) (by decide) hc
  value := Nat.ofDigitChars_ten_toDigits

theorem toList_toString (n : Nat) : (toString n).toList = Nat.toDigits 10 n := by
  rw [Nat.toString_eq_ofList_toDigits, String.toList_ofList]

theorem eq_zero_of_head?_toDigits {n : Nat} (h : (Nat.toDigits 10 n).head? = some '0') : n = 0 := by
  induction n using Nat.strongRecOn with
  | ind n ih =>
    by_cases hsmall : n < 10
    . rw [Nat.toDigits_of_lt_base hsmall] at h
      exact Nat.digitChar_eq_zero.mp (Option.some.inj h)
    . have hfront : (Nat.toDigits 10 (n / 10)).head? = some '0' := by
        rw [Nat.toDigits_of_base_le (by decide) (by omega), List.head?_append,
          List.head?_eq_some_head Nat.toDigits_ne_nil] at h
        rw [List.head?_eq_some_head Nat.toDigits_ne_nil]
        exact h
      have hzero := ih (n / 10) (by omega) hfront
      omega

section Span

variable {cs rest : List Char} (hdigit : ∀ c ∈ cs, c.isDigit = true)
include hdigit

theorem takeWhile_isDigit_append (hrest : NoDigit rest) : (cs ++ rest).takeWhile Char.isDigit = cs := by
  rw [List.takeWhile_append_of_pos hdigit]
  cases rest with
  | nil => simp
  | cons c rest => simp [hrest c rest rfl]

theorem dropWhile_isDigit_append (hrest : NoDigit rest) : (cs ++ rest).dropWhile Char.isDigit = rest := by
  rw [List.dropWhile_append_of_pos hdigit]
  cases rest with
  | nil => simp
  | cons c rest => simp [hrest c rest rfl]

end Span

end Numeric

namespace Json.Reader

open Numeric

theorem ofDigits_map_digitValue (cs : List Char) : ofDigits (cs.map digitValue) = Nat.ofDigitChars 10 cs 0 := by
  have hdigit : (fun (n : Nat) (c : Char) => n * 10 + digitValue c) = fun n c => 10 * n + (c.toNat - '0'.toNat) := by
    funext n c
    rw [Nat.mul_comm, digitValue]
  rw [ofDigits, List.foldl_map, hdigit, Nat.ofDigitChars_eq_foldl]

theorem digits_append {cs rest : List Char} (hdigit : ∀ c ∈ cs, c.isDigit = true) (hrest : NoDigit rest)
    : digits (cs ++ rest) = (cs.map digitValue, rest) := by
  simp only [digits, List.span_eq_takeWhile_dropWhile]
  rw [takeWhile_isDigit_append hdigit hrest, dropWhile_isDigit_append hdigit hrest]

theorem map_digitValue_toDigits_ne (n d : Nat) (ds : List Nat)
    : (Nat.toDigits 10 n).map digitValue ≠ 0 :: d :: ds := by
  intro h
  rcases hcs : Nat.toDigits 10 n with - | ⟨c, cs⟩
  . rw [hcs] at h
    cases h
  . rw [hcs, List.map_cons, List.cons.injEq] at h
    have hbounds := digit_bounds ((decimal_toDigits n).isDigit c (by rw [hcs]; exact List.mem_cons_self))
    have hzero : c = '0' := by
      have hvalue : c.toNat - '0'.toNat = 0 := h.1
      exact Char.ext (UInt32.toNat_inj.mp (Nat.le_antisymm (Nat.sub_eq_zero_iff_le.mp hvalue) hbounds.1))
    have hn : n = 0 := eq_zero_of_head?_toDigits (by rw [hcs, hzero]; rfl)
    rw [hn, Nat.toDigits_zero] at hcs
    cases hcs
    simp at h

end Json.Reader

namespace Time.Rfc3339

open Numeric

theorem toList_padded (width n : Nat)
    : (padded width n).toList
        =
      List.replicate (width - (Nat.toDigits 10 n).length) '0' ++ Nat.toDigits 10 n := by
  have hpush (s : String) (k : Nat) : (s.pushn '0' k).toList = s.toList ++ List.replicate k '0' := by
    induction k with
    | zero => simp [String.pushn_eq_repeat_push, Nat.repeat]
    | succ k ih =>
      rw [String.pushn_eq_repeat_push] at ih ⊢
      rw [Nat.repeat, String.toList_push, ih, List.replicate_succ', List.append_assoc]
  rw [padded, String.toList_append, hpush, ← String.length_toList, toList_toString, String.toList_empty,
    List.nil_append]

theorem decimal_padded (width n : Nat) : Decimal (padded width n).toList n where
  isDigit c hc := by
    rw [toList_padded, List.mem_append] at hc
    rcases hc with hzero | hdigit
    . rw [List.eq_of_mem_replicate hzero]
      rfl
    . exact (decimal_toDigits n).isDigit c hdigit
  value := by
    rw [toList_padded, Nat.ofDigitChars_append, Nat.ofDigitChars_replicate_zero, Nat.mul_zero]
    exact (decimal_toDigits n).value

theorem length_padded {width n : Nat} (hwidth : 0 < width) (h : n < 10 ^ width)
    : (padded width n).toList.length = width := by
  have hle := (Nat.length_toDigits_le_iff (b := 10) (by decide) hwidth).mpr h
  rw [toList_padded, List.length_append, List.length_replicate]
  omega

theorem number?_append {cs : List Char} {n most : Nat} (rest : List Char) (h : Decimal cs n) (hne : cs ≠ [])
    (hlength : cs.length = most ∨ cs.length ≤ most ∧ NoDigit rest) : number? most (cs ++ rest) = some (n, rest) := by
  have htake : ((cs ++ rest).take most).takeWhile Char.isDigit = cs := by
    rcases hlength with rfl | ⟨hle, hrest⟩
    . rw [List.take_left, List.takeWhile_eq_self_iff]
      exact h.isDigit
    . rw [List.take_append, List.take_of_length_le hle]
      refine takeWhile_isDigit_append h.isDigit ?_
      intro c rest' hcons
      cases rest with
      | nil => simp at hcons
      | cons c' rest =>
        refine hrest c rest ?_
        cases hmore : most - cs.length with
        | zero => simp [hmore] at hcons
        | succ k =>
          rw [hmore, List.take_succ_cons] at hcons
          rw [(List.cons.inj hcons).1]
  have hvalue : cs.foldl (fun n c => n * 10 + (c.toNat - '0'.toNat)) 0 = n := by
    rw [← h.value, Nat.ofDigitChars_eq_foldl]
    simp only [Nat.mul_comm]
  simp only [number?, htake, List.isEmpty_iff, hne, if_false, hvalue, List.drop_left]

end Time.Rfc3339

end BoxRegistry
