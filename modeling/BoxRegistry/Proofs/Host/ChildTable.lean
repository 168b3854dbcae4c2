import BoxRegistry.Host.ChildTable
import BoxRegistry.Proofs.Basic

namespace BoxRegistry.Host.ChildTable

variable {t : ChildTable} {pid pid' : Pid} {n : Nat}

theorem lookup_map_replace [DecidableEq α] (entries : List (α × β)) (k k' : α) (v : β)
    : (entries.map fun entry => if entry.1 = k then (k, v) else entry).lookup k' =
        if k' = k then (entries.lookup k).map fun _ => v else entries.lookup k' := by
  induction entries with
  | nil => simp
  | cons entry entries ih =>
    rcases entry with ⟨k₁, v₁⟩
    rw [List.map_cons, List.lookup_cons, ih]
    by_cases hk : k₁ = k
    . subst hk
      by_cases hk' : k' = k₁
      . simp [hk']
      . have hne : (k' == k₁) = false := by simpa using hk'
        simp [hk', hne, List.lookup_cons]
    . by_cases hk' : k' = k
      . subst hk'
        have hne : (k' == k₁) = false := by simpa using Ne.symm hk
        simp [hk, hne, List.lookup_cons]
      . by_cases hfound : k' = k₁
        . simp [hk, hfound]
        . have hne : (k' == k₁) = false := by simpa using hfound
          simp [hk, hk', hne, List.lookup_cons]

theorem map_fst_replace [DecidableEq α] (entries : List (α × β)) (k : α) (v : β)
    : (entries.map fun entry => if entry.1 = k then (k, v) else entry).map (·.1) = entries.map (·.1) := by
  rw [List.map_map]
  apply List.map_congr_left
  intro entry _
  by_cases hentry : entry.1 = k <;> simp [hentry]

section Entries

theorem child?_erase (t : ChildTable) (pid pid' : Pid)
    : (t.erase pid).child? pid' = if pid' = pid then none else t.child? pid' :=
  lookup_filter_ne t.children pid pid'

theorem child?_register (t : ChildTable) (pid pid' : Pid)
    : (t.register pid).child? pid' =
        if pid' = pid then some { channel := t.channels.length } else t.child? pid' := by
  have herase := child?_erase t pid pid'
  rw [child?] at herase ⊢
  rw [register, List.lookup_cons, herase]
  by_cases hpid : pid' = pid
  . simp [hpid]
  . have hne : (pid' == pid) = false := by simpa using hpid
    simp [hpid, hne]

@[simp]
theorem child?_publish (t : ChildTable) (n : Nat) (result : Published) (pid : Pid)
    : (t.publish n result).child? pid = t.child? pid :=
  rfl

theorem child?_prune (t : ChildTable) (pid pid' : Pid)
    : (t.prune pid).child? pid' =
        if pid' = pid ∧ (t.child? pid).any Child.released then none else t.child? pid' := by
  rw [prune]
  split
  . next child hchild =>
    split
    . next hreleased => simp [child?_erase, hchild, hreleased]
    . next hreleased => simp [hchild, hreleased]
  . next hnone => simp [hnone]

theorem child?_release (t : ChildTable) (pid pid' : Pid)
    : (t.release pid).child? pid' =
        if pid' = pid then
          (t.child? pid).bind fun child =>
            if (t.published? child.channel).isSome then none else some { child with released := true }
        else t.child? pid' := by
  rw [release]
  split
  . next hnone =>
    split
    . next hpid => rw [hpid, hnone]; rfl
    . rfl
  . next child hchild =>
    split
    . next hpublished => simp [child?_erase, hchild, hpublished]
    . next hpublished =>
      have hlookup := lookup_map_replace t.children pid pid' { child with released := true }
      rw [child?, hlookup, ← child?, ← child?, hchild]
      simp [hpublished]

end Entries

section Channels

@[simp]
theorem channels_register (t : ChildTable) (pid : Pid)
    : (t.register pid).channels = t.channels ++ [⟨pid, none⟩] :=
  rfl

@[simp]
theorem channels_prune (t : ChildTable) (pid : Pid) : (t.prune pid).channels = t.channels := by
  rw [prune]
  split
  . split <;> rfl
  . rfl

@[simp]
theorem channels_release (t : ChildTable) (pid : Pid) : (t.release pid).channels = t.channels := by
  rw [release]
  split
  . rfl
  . split <;> rfl

theorem getElem?_channels_publish (t : ChildTable) (n m : Nat) (result : Published)
    : (t.publish n result).channels[m]? =
        if n = m then t.channels[m]?.map fun channel => { channel with result := some result }
        else t.channels[m]? := by
  rw [publish, List.getElem?_modify]
  split <;> simp_all

end Channels

section Keys

def Keyed (t : ChildTable) : Prop :=
  (t.children.map (·.1)).Nodup

theorem Keyed.mem_iff (h : t.Keyed) {child : Child} : (pid, child) ∈ t.children ↔ t.child? pid = some child :=
  (lookup_eq_some_iff_mem h).symm

theorem Keyed.erase (h : t.Keyed) (pid : Pid) : (t.erase pid).Keyed :=
  h.sublist (List.filter_sublist.map _)

theorem Keyed.register (h : t.Keyed) (pid : Pid) : (t.register pid).Keyed := by
  rw [Keyed, ChildTable.register, List.map_cons, List.nodup_cons]
  refine ⟨?_, h.erase pid⟩
  intro hmem
  rcases List.mem_map.mp hmem with ⟨entry, hentry, rfl⟩
  simp [ChildTable.erase] at hentry

theorem Keyed.prune (h : t.Keyed) (pid : Pid) : (t.prune pid).Keyed := by
  rw [ChildTable.prune]
  split
  . split
    . exact h.erase pid
    . exact h
  . exact h

theorem Keyed.release (h : t.Keyed) (pid : Pid) : (t.release pid).Keyed := by
  rw [ChildTable.release]
  split
  . exact h
  . split
    . exact h.erase pid
    . rw [Keyed, map_fst_replace]
      exact h

end Keys

end BoxRegistry.Host.ChildTable
