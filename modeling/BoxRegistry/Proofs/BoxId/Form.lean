import BoxRegistry.Proofs.BoxId
import Mathlib.Data.String.Basic

/-!
This module contains the form of an id in plain terms, and where a text can be cut. One that has the form of an id
takes a byte for each of its characters, so it can be cut anywhere; one that has not may end before the place, or have
a character across it.
-/

namespace BoxRegistry
namespace BoxId

open String (utf8Len)

def IsCapital (c : Char) : Prop :=
  '0' ≤ c ∧ c ≤ '9' ∨ ('A' ≤ c ∧ c ≤ 'Z') ∧ c ∉ ['I', 'L', 'O', 'U']

def IsBase32 (c : Char) : Prop :=
  IsCapital c ∨ ('a' ≤ c ∧ c ≤ 'z') ∧ c ∉ ['i', 'l', 'o', 'u']

instance (c : Char) : Decidable (IsCapital c) :=
  inferInstanceAs (Decidable (_ ∨ _))

instance (c : Char) : Decidable (IsBase32 c) :=
  inferInstanceAs (Decidable (_ ∨ _))

section Digits

variable {c : Char} {cs : List Char}

theorem isCapital_of_mem_alphabet (h : c ∈ alphabet) : IsCapital c := by
  have halphabet : alphabet.all (fun d => decide (IsCapital d)) = true := by decide
  exact of_decide_eq_true (List.all_eq_true.mp halphabet c h)

theorem lt_of_isBase32 (h : IsBase32 c) : c.toNat < 128 := by
  have hbelow : ∀ d : Char, d.toNat < 128 → c ≤ d → c.toNat < 128 := fun _ hd hle => Nat.lt_of_le_of_lt hle hd
  rcases h with (⟨-, hle⟩ | ⟨⟨-, hle⟩, -⟩) | ⟨⟨-, hle⟩, -⟩
  . exact hbelow '9' (by decide) hle
  . exact hbelow 'Z' (by decide) hle
  . exact hbelow 'z' (by decide) hle

theorem toUpper_of_le (h : 128 ≤ c.toNat) : c.toUpper = c := by
  unfold Char.toUpper
  split
  . next hsmall =>
    have : c.toNat ≤ 122 := hsmall.2
    omega
  . rfl

theorem lt_of_isDigit (h : isDigit c = true) : c.toNat < 128 := by
  by_contra hge
  have hmem : c ∈ alphabet := by
    rw [isDigit, toUpper_of_le (by omega)] at h
    simpa using h
  have halphabet : alphabet.all (fun d => decide (d.toNat < 128)) = true := by decide
  exact hge (of_decide_eq_true (List.all_eq_true.mp halphabet c hmem))

theorem isDigit_iff : isDigit c = true ↔ IsBase32 c := by
  by_cases hascii : c.toNat < 128
  . have hall : ∀ n < 128, isDigit (Char.ofNat n) = true ↔ IsBase32 (Char.ofNat n) := by decide +kernel
    have := hall c.toNat hascii
    rwa [Char.ofNat_toNat] at this
  . exact iff_of_false (fun h => hascii (lt_of_isDigit h)) (fun h => hascii (lt_of_isBase32 h))

theorem utf8Size_of_isBase32 (h : IsBase32 c) : c.utf8Size = 1 := by
  have hle : c.val ≤ 127 := Nat.le_of_lt_succ (lt_of_isBase32 h)
  simp [Char.utf8Size, hle]

theorem utf8Len_of_isBase32 (h : ∀ c ∈ cs, IsBase32 c) : utf8Len cs = cs.length := by
  induction cs with
  | nil => rfl
  | cons c cs ih =>
    rw [String.utf8Len_cons, List.length_cons, ih fun d hd => h d (List.mem_cons_of_mem c hd),
      utf8Size_of_isBase32 (h c List.mem_cons_self)]

end Digits

section Form

variable {text : String} {id : BoxId}

theorem isValid_iff : isValid text = true ↔ text.utf8ByteSize = 26 ∧ ∀ c ∈ text.toList, IsBase32 c := by
  simp only [isValid, Bool.and_eq_true, decide_eq_true_eq, List.all_eq_true, isDigit_iff, ← String.utf8Len_toList]
  constructor
  . rintro ⟨hlength, hall⟩
    exact ⟨(utf8Len_of_isBase32 hall).trans hlength, hall⟩
  . rintro ⟨hsize, hall⟩
    exact ⟨(utf8Len_of_isBase32 hall).symm.trans hsize, hall⟩

theorem parse?_eq_some_iff : parse? text = some id ↔ isValid text = true ∧ id.text = text := by
  unfold parse?
  split
  . next hvalid =>
    simp only [Option.some.injEq, hvalid, true_and]
    constructor
    . rintro rfl
      rfl
    . rintro rfl
      rfl
  . next hvalid => simp [hvalid]

end Form

section Cut

theorem takeBytes?_eq_some_iff {n : Nat} {cs front : List Char}
    : takeBytes? n cs = some front ↔ front <+: cs ∧ utf8Len front = n := by
  fun_induction takeBytes? n cs generalizing front with
  | case1 cs =>
    rw [Option.some.injEq, String.utf8Len_eq_zero]
    constructor
    . rintro rfl
      exact ⟨List.nil_prefix, rfl⟩
    . rintro ⟨-, rfl⟩
      rfl
  | case2 n =>
    simp only [List.prefix_nil, reduceCtorEq, false_iff, not_and]
    rintro rfl
    exact (Nat.succ_ne_zero n).symm
  | case3 n c cs hfits ih =>
    simp only [Option.map_eq_some_iff, ih]
    constructor
    . rintro ⟨rest, ⟨hfront, hsize⟩, rfl⟩
      refine ⟨List.cons_prefix_cons.mpr ⟨rfl, hfront⟩, ?_⟩
      rw [String.utf8Len_cons, hsize]
      omega
    . rintro ⟨hfront, hsize⟩
      cases front with
      | nil => cases hsize
      | cons d rest =>
        rcases List.cons_prefix_cons.mp hfront with ⟨rfl, hrest⟩
        rw [String.utf8Len_cons] at hsize
        exact ⟨rest, ⟨hrest, by omega⟩, rfl⟩
  | case4 n c cs hbig =>
    simp only [reduceCtorEq, false_iff, not_and]
    intro hfront hsize
    -- The first character alone takes up more.
    cases front with
    | nil => cases hsize
    | cons d rest =>
      rcases List.cons_prefix_cons.mp hfront with ⟨rfl, -⟩
      rw [String.utf8Len_cons] at hsize
      omega

variable {id : BoxId}

theorem short?_eq_some_iff {s : String}
    : id.short? = some s ↔ s.toList <+: id.text.toList ∧ s.utf8ByteSize = 8 := by
  simp only [short?, shortLength, Option.map_eq_some_iff, takeBytes?_eq_some_iff, ← String.utf8Len_toList]
  constructor
  . rintro ⟨front, hfront, rfl⟩
    rwa [String.toList_ofList]
  . intro h
    exact ⟨s.toList, h, String.ofList_toList⟩

theorem short?_eq_none_iff
    : id.short? = none ↔ ∀ s : String, s.toList <+: id.text.toList → s.utf8ByteSize ≠ 8 := by
  simp only [Option.eq_none_iff_forall_ne_some, ne_eq, short?_eq_some_iff, not_and]

theorem short?_of_isValid (h : isValid id.text = true)
    : id.short? = some (String.ofList (id.text.toList.take 8)) := by
  rcases isValid_iff.mp h with ⟨hsize, hall⟩
  have hlength : id.text.toList.length = 26 := by
    rw [← utf8Len_of_isBase32 hall, String.utf8Len_toList, hsize]
  rw [short?_eq_some_iff, String.toList_ofList, String.utf8ByteSize_ofList,
    utf8Len_of_isBase32 fun c hc => hall c (List.mem_of_mem_take hc), List.length_take, hlength]
  exact ⟨List.take_prefix 8 _, rfl⟩

theorem label?_eq_none_iff : id.label? = none ↔ id.short? = none :=
  Option.map_eq_none_iff

end Cut

end BoxId
end BoxRegistry
