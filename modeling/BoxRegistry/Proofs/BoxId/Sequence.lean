import BoxRegistry.Proofs.BoxId.Form

namespace BoxRegistry

namespace IdSource

def drawAll (source : IdSource) : List (Nat × Nat) → List Nat
  | [] => []
  | (clock, chance) :: readings =>
    match source.draw? clock chance with
    | some (n, source) => n :: source.drawAll readings
    | none => source.drawAll readings

theorem bounds_of_mem_drawAll {source : IdSource} {readings : List (Nat × Nat)} {n : Nat}
    (h : n ∈ source.drawAll readings)
    : source.last < n ∧ (source.last < Nat.pow 2 128 → n < Nat.pow 2 128) := by
  induction readings generalizing source with
  | nil => cases h
  | cons reading readings ih =>
    simp only [drawAll] at h
    split at h
    . next m ids hdraw =>
      rcases draw?_eq_some hdraw with ⟨rfl, hlt, hbound⟩
      rcases List.mem_cons.mp h with rfl | hlater
      . exact ⟨hlt, hbound⟩
      . rcases ih hlater with ⟨hlt', hbound'⟩
        exact ⟨Nat.lt_trans hlt hlt', fun hlast => hbound' (hbound hlast)⟩
    . exact ih h

theorem drawAll_increasing (source : IdSource) (readings : List (Nat × Nat))
    : (source.drawAll readings).Pairwise (· < ·) := by
  induction readings generalizing source with
  | nil => exact .nil
  | cons reading readings ih =>
    simp only [drawAll]
    split
    . next m ids hdraw =>
      rcases draw?_eq_some hdraw with ⟨rfl, -, -⟩
      exact .cons (fun n hn => (bounds_of_mem_drawAll hn).1) (ih ids)
    . exact ih source

end IdSource

namespace BoxId

theorem mem_digits_ofNumber {n : Nat} {c : Char} (h : c ∈ (ofNumber n).text.toList) : c ∈ alphabet := by
  rw [ofNumber, String.toList_ofList] at h
  exact mem_alphabet_of_mem_digits h

/--
Ids in the order in which they were made: each comes after all before it in the order of texts, is written in 26
capital digits and is read back from its text.
-/
structure InOrder (ids : List BoxId) : Prop where
  grow : ids.Pairwise fun a b => a.text < b.text
  distinct : ids.Nodup
  capital : ∀ id ∈ ids, id.text.toList.length = 26 ∧ ∀ c ∈ id.text.toList, IsCapital c
  valid : ∀ id ∈ ids, isValid id.text = true
  parsed : ∀ id ∈ ids, parse? id.text = some id

theorem inOrder_of_numbers {numbers : List Nat} (hgrow : numbers.Pairwise (· < ·))
    (hbound : ∀ n ∈ numbers, n < Nat.pow 2 128)
    : InOrder (numbers.map ofNumber) := by
  have htexts : (numbers.map ofNumber).Pairwise fun a b => a.text < b.text := by
    rw [List.pairwise_map]
    apply hgrow.imp_of_mem
    intro n m _ hm hlt
    exact ofNumber_lt_ofNumber hlt (Nat.lt_trans (hbound m hm) IdSource.pow_lt_capacity)
  have hmade : ∀ id ∈ numbers.map ofNumber, ∃ n, ofNumber n = id := by
    intro id hid
    rcases List.mem_map.mp hid with ⟨n, -, hn⟩
    exact ⟨n, hn⟩
  constructor
  case grow => exact htexts
  case distinct =>
    apply htexts.imp
    rintro a b hlt rfl
    exact String.lt_irrefl _ hlt
  case capital =>
    intro id hid
    rcases hmade id hid with ⟨n, rfl⟩
    refine ⟨?_, fun c hc => isCapital_of_mem_alphabet (mem_digits_ofNumber hc)⟩
    rw [ofNumber, String.toList_ofList, length_digits]
    rfl
  case valid =>
    intro id hid
    rcases hmade id hid with ⟨n, rfl⟩
    exact isValid_ofNumber n
  case parsed =>
    intro id hid
    rcases hmade id hid with ⟨n, rfl⟩
    exact parse?_eq_some_iff.mpr ⟨isValid_ofNumber n, rfl⟩

/--
Ids sort by their creation. Those that are written for growing numbers of 128 bits do, wherever the numbers come from,
and so do those of a source, at whatever readings of its clock. A text is taken for an id exactly if it is 26 digits in
base 32, in either case; the id then keeps the text as it is, and its short form is the first eight digits.
-/
theorem ids_sort_by_creation
    : (∀ numbers : List Nat, numbers.Pairwise (· < ·) → (∀ n ∈ numbers, n < Nat.pow 2 128) →
        InOrder (numbers.map ofNumber)) ∧
      (∀ readings, InOrder ((({} : IdSource).drawAll readings).map ofNumber)) ∧
      (∀ text id, parse? text = some id ↔
        (text.utf8ByteSize = 26 ∧ ∀ c ∈ text.toList, IsBase32 c) ∧ id.text = text) ∧
      ∀ text id, parse? text = some id → id.short? = some (String.ofList (text.toList.take 8)) := by
  refine ⟨fun _ => inOrder_of_numbers, ?_, ?_, ?_⟩
  . intro readings
    apply inOrder_of_numbers (IdSource.drawAll_increasing _ _)
    intro n hn
    exact (IdSource.bounds_of_mem_drawAll hn).2 (Nat.pow_pos (by decide))
  . intro text id
    rw [parse?_eq_some_iff, isValid_iff]
  . intro text id hparse
    rcases parse?_eq_some_iff.mp hparse with ⟨hvalid, rfl⟩
    exact short?_of_isValid hvalid

theorem ids_sort_by_creation_clockStepsBack
    : ({} : IdSource).drawAll [(1, 7), (1, 0), (0, 5)] = [2 ^ 80 + 7, 2 ^ 80 + 8, 2 ^ 80 + 9] ∧
      InOrder ([2 ^ 80 + 7, 2 ^ 80 + 8, 2 ^ 80 + 9].map ofNumber) ∧
      InOrder ([0, 31, 32, 2 ^ 128 - 1].map ofNumber) ∧
      (⟨"01hjk4tnrpqsxyz8wm6ncvt9r5"⟩ : BoxId).short? = some "01hjk4tn" := by
  rcases ids_sort_by_creation with ⟨hnumbers, hdrawn, -, hshort⟩
  have hreadings : ({} : IdSource).drawAll [(1, 7), (1, 0), (0, 5)] = [2 ^ 80 + 7, 2 ^ 80 + 8, 2 ^ 80 + 9] := by
    decide +kernel
  have hinOrder := hdrawn [(1, 7), (1, 0), (0, 5)]
  rw [hreadings] at hinOrder
  refine ⟨hreadings, hinOrder, hnumbers _ (by decide +kernel) (by decide +kernel), ?_⟩
  exact hshort "01hjk4tnrpqsxyz8wm6ncvt9r5" _ (by decide +kernel)

end BoxId

end BoxRegistry
