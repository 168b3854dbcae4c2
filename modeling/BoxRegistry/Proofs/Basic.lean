import Mathlib.Data.List.Nodup

namespace BoxRegistry

section Results

theorem bind_eq_ok_iff {x : Except ε α} {f : α → Except ε β} {b : β}
    : (x >>= f) = .ok b ↔ ∃ a, x = .ok a ∧ f a = .ok b := by
  cases x <;> simp [bind, Except.bind]

theorem mapError_eq_ok_iff {x : Except ε α} {f : ε → ε'} {a : α} : x.mapError f = .ok a ↔ x = .ok a := by
  cases x <;> simp [Except.mapError]

end Results

theorem find?_eq_some_of_unique {xs : List α} {q : α → Bool} {x : α} (hmem : x ∈ xs) (hx : q x = true)
    (hunique : ∀ y ∈ xs, q y = true → y = x)
    : xs.find? q = some x := by
  cases hfind : xs.find? q with
  | none =>
    rw [List.find?_eq_none] at hfind
    exact absurd hx (hfind x hmem)
  | some y => rw [hunique y (List.mem_of_find?_eq_some hfind) (List.find?_some hfind)]

section Entries

variable [BEq α] [LawfulBEq α] {entries : List (α × β)}

theorem lookup_eq_some_iff_mem (h : (entries.map (·.1)).Nodup) {k : α} {v : β}
    : entries.lookup k = some v ↔ (k, v) ∈ entries := by
  induction entries with
  | nil => simp
  | cons entry entries ih =>
    rcases entry with ⟨k', v'⟩
    rw [List.map_cons, List.nodup_cons] at h
    rw [List.lookup_cons, List.mem_cons]
    by_cases hk : k = k'
    . subst hk
      have hnew : (k, v) ∉ entries := fun hmem => h.1 (List.mem_map.mpr ⟨_, hmem, rfl⟩)
      simp [hnew, eq_comm]
    . have hne : (k == k') = false := by simpa using hk
      simp [hne, hk, ih h.2]

theorem lookup_filter_ne [DecidableEq α] (entries : List (α × β)) (k k' : α)
    : (entries.filter fun entry => entry.1 ≠ k).lookup k' = if k' = k then none else entries.lookup k' := by
  induction entries with
  | nil => simp
  | cons entry entries ih =>
    rcases entry with ⟨k₁, v₁⟩
    by_cases hk : k₁ = k
    . subst hk
      rw [List.filter_cons_of_neg (by simp), ih, List.lookup_cons]
      by_cases hk' : k' = k₁
      . simp [hk']
      . have hne : (k' == k₁) = false := by simpa using hk'
        simp [hk', hne]
    . rw [List.filter_cons_of_pos (by simpa using hk), List.lookup_cons, List.lookup_cons, ih]
      by_cases hk' : k' = k₁
      . simp [hk', hk]
      . have hne : (k' == k₁) = false := by simpa using hk'
        simp [hne]

end Entries

end BoxRegistry
