import BoxRegistry.BoxId
import Mathlib.Algebra.Group.Nat.Defs

namespace BoxRegistry
namespace BoxId

@[simp]
theorem length_digits (count n : Nat) : (digits count n).length = count := by
  induction count generalizing n with
  | zero => rfl
  | succ count ih => simp [digits, ih]

theorem alphabet_lt {i j : Nat} (h : i < j) (hj : j < 32) : alphabet.getD i '0' < alphabet.getD j '0' := by
  have hordered : alphabet.Pairwise (· < ·) := by decide
  have hlength : alphabet.length = 32 := rfl
  have hi : i < alphabet.length := by omega
  have hj : j < alphabet.length := by omega
  simp only [List.getD, List.getElem?_eq_getElem hi, List.getElem?_eq_getElem hj, Option.getD_some]
  exact List.pairwise_iff_getElem.mp hordered i j hi hj h

theorem append_lt_append {l l' : List Char} (h : l < l') (hlength : l.length = l'.length) (r r' : List Char)
    : l ++ r < l' ++ r' := by
  induction l generalizing l' with
  | nil =>
    cases l' with
    | nil => exact absurd h (List.not_lt_nil _)
    | cons c' l' => cases hlength
  | cons c l ih =>
    cases l' with
    | nil => cases hlength
    | cons c' l' =>
      rw [List.cons_append, List.cons_append, List.cons_lt_cons_iff]
      rcases List.cons_lt_cons_iff.mp h with hlt | ⟨rfl, hlt⟩
      . exact .inl hlt
      . exact .inr ⟨rfl, ih hlt (Nat.succ.inj hlength)⟩

theorem digits_lt_digits {count n m : Nat} (h : n < m) (hm : m < 32 ^ count) : digits count n < digits count m := by
  induction count generalizing n m with
  | zero => omega
  | succ count ih =>
    simp only [digits]
    -- Either a digit before the last decides, or the last one does.
    by_cases heq : n / 32 = m / 32
    . rw [heq]
      apply List.append_left_lt
      rw [List.cons_lt_cons_iff]
      exact .inl (alphabet_lt (by omega) (by omega))
    . have hdiv : m / 32 < 32 ^ count := by
        rw [Nat.pow_succ] at hm
        omega
      exact append_lt_append (ih (by omega) hdiv) (by simp) _ _

def capacity : Nat := 32 ^ fullLength

theorem ofNumber_lt_ofNumber {n m : Nat} (h : n < m) (hm : m < capacity)
    : (ofNumber n).text < (ofNumber m).text := by
  rw [String.lt_iff]
  simp only [ofNumber, String.toList_ofList]
  exact digits_lt_digits h hm

theorem mem_alphabet_of_mem_digits {count n : Nat} {c : Char} (h : c ∈ digits count n) : c ∈ alphabet := by
  induction count generalizing n with
  | zero => cases h
  | succ count ih =>
    rcases List.mem_append.mp h with h | h
    . exact ih h
    . have halphabet : ∀ i : Fin 32, alphabet.getD i '0' ∈ alphabet := by decide
      rw [List.mem_singleton.mp h]
      exact halphabet ⟨n % 32, Nat.mod_lt n (by decide)⟩

theorem isDigit_of_mem_digits {count n : Nat} {c : Char} (h : c ∈ digits count n) : isDigit c = true := by
  have halphabet : alphabet.all isDigit = true := by decide
  exact List.all_eq_true.mp halphabet c (mem_alphabet_of_mem_digits h)

theorem isValid_ofNumber (n : Nat) : isValid (ofNumber n).text = true := by
  simp only [isValid, ofNumber, String.toList_ofList, length_digits, decide_true, Bool.true_and, List.all_eq_true]
  exact fun c hc => isDigit_of_mem_digits hc

theorem isValid_congr {text text' : String}
    (h : text.toList.map Char.toUpper = text'.toList.map Char.toUpper)
    : isValid text = isValid text' := by
  have hlength : text.toList.length = text'.toList.length := by
    simpa using congrArg List.length h
  have hall : ∀ l : List Char, l.all isDigit = (l.map Char.toUpper).all alphabet.contains := by
    intro l
    rw [List.all_map]
    rfl
  simp only [isValid, hlength, hall, h]

end BoxId

namespace IdSource

theorem draw?_eq_some {source ids : IdSource} {clock chance n : Nat} (h : source.draw? clock chance = some (n, ids))
    : ids.last = n ∧ source.last < n ∧ (source.last < Nat.pow 2 128 → n < Nat.pow 2 128) := by
  have hclock : Nat.pow 2 48 = 281474976710656 := rfl
  have hrandom : Nat.pow 2 80 = 1208925819614629174706176 := rfl
  have hbound : Nat.pow 2 128 = 340282366920938463463374607431768211456 := rfl
  simp only [draw?, randomBits, hclock, hrandom] at h
  rw [hbound]
  split at h
  . cases h
    refine ⟨rfl, ?_, ?_⟩ <;> omega
  . split at h
    . cases h
      refine ⟨rfl, ?_, ?_⟩ <;> omega
    . cases h

theorem pow_lt_capacity : Nat.pow 2 128 < BoxId.capacity := by
  decide

end IdSource

end BoxRegistry
