import BoxRegistry.Host.Bounds
import BoxRegistry.Spec
import Mathlib.Data.List.Range

namespace BoxRegistry.Host

def setSize : Nat := 1024

def numbers (mask : List Bool) : List Nat :=
  (List.range mask.length).filter fun cpu => mask[cpu]? = some true

section Numbers

variable {mask : List Bool}

theorem mem_numbers {cpu : Nat} : cpu ∈ numbers mask ↔ mask[cpu]? = some true := by
  rw [numbers, List.mem_filter, List.mem_range, decide_eq_true_eq, and_iff_right_iff_imp]
  intro h
  exact (List.getElem?_eq_some_iff.mp h).1

theorem pairwise_numbers (mask : List Bool) : (numbers mask).Pairwise (· < ·) :=
  List.pairwise_lt_range.filter _

theorem numbers_cons (allowed : Bool) (mask : List Bool)
    : numbers (allowed :: mask) = (if allowed then [0] else []) ++ (numbers mask).map (· + 1) := by
  rw [numbers, List.length_cons, List.range_succ_eq_map, List.filter_cons, List.filter_map]
  cases allowed <;> rfl

theorem numbers_append (front back : List Bool)
    : numbers (front ++ back) = numbers front ++ (numbers back).map (· + front.length) := by
  induction front with
  | nil => simp [numbers]
  | cons allowed front ih =>
    have hshift : (fun cpu => cpu + 1) ∘ (fun cpu => cpu + front.length) = fun cpu => cpu + (front.length + 1) := by
      funext cpu
      exact Nat.add_assoc cpu front.length 1
    rw [List.cons_append, numbers_cons, numbers_cons, ih, List.map_append, List.map_map, hshift, List.length_cons,
      List.append_assoc]

theorem numbers_take_succ (mask : List Bool) (cpu : Nat)
    : numbers (mask.take (cpu + 1)) =
        numbers (mask.take cpu) ++ if mask[cpu]? = some true then [cpu] else [] := by
  rw [List.take_add_one]
  cases hallowed : mask[cpu]? with
  | none => simp
  | some allowed =>
    have hlength : (mask.take cpu).length = cpu :=
      List.length_take_of_le (Nat.le_of_lt (List.getElem?_eq_some_iff.mp hallowed).1)
    rw [Option.toList_some, numbers_append, hlength]
    cases allowed <;> simp [numbers]

theorem numbers_take_prefix (mask : List Bool) (cpu : Nat) : numbers (mask.take cpu) <+: numbers mask := by
  have hsplit := numbers_append (mask.take cpu) (mask.drop cpu)
  rw [List.take_append_drop] at hsplit
  exact ⟨_, hsplit.symm⟩

theorem numbers_of_none_allowed (mask : List Bool) : numbers (mask.map fun _ => false) = [] := by
  rw [List.eq_nil_iff_forall_not_mem]
  intro cpu h
  rw [mem_numbers, List.getElem?_map] at h
  cases hallowed : mask[cpu]? <;> simp [hallowed] at h

end Numbers

section Pinning

theorem numbers_firstProcessors (n : Nat) (mask : List Bool)
    : numbers (firstProcessors n mask).1 = (numbers mask).take n := by
  fun_induction firstProcessors n mask with
  | case1 n => simp [numbers]
  | case2 mask hne => rw [numbers_of_none_allowed, List.take_zero]
  | case3 n mask pinned taken hrest ih =>
    rw [hrest] at ih
    simp [numbers_cons, ih, List.map_take]
  | case4 n mask pinned taken hrest ih =>
    rw [hrest] at ih
    simp [numbers_cons, ih, List.map_take]

theorem taken_firstProcessors (n : Nat) (mask : List Bool)
    : (firstProcessors n mask).2 = min n (numbers mask).length := by
  fun_induction firstProcessors n mask with
  | case1 n => simp [numbers]
  | case2 mask hne => simp
  | case3 n mask pinned taken hrest ih =>
    rw [hrest] at ih
    simp only [numbers_cons, if_pos, List.length_append, List.length_singleton, List.length_map]
    omega
  | case4 n mask pinned taken hrest ih =>
    rw [hrest] at ih
    simpa [numbers_cons] using ih

theorem pin_of_length_lt {cpus : Nat} {mask : List Bool} (h : (numbers mask).length < cpus) : pin cpus mask = mask := by
  have htaken := taken_firstProcessors cpus mask
  rw [Nat.min_eq_right (Nat.le_of_lt h)] at htaken
  rw [pin]
  exact if_pos (htaken ▸ h)

theorem numbers_pin (cpus : Nat) (mask : List Bool) : numbers (pin cpus mask) = (numbers mask).take cpus := by
  by_cases h : (numbers mask).length < cpus
  . rw [pin_of_length_lt h, List.take_of_length_le (Nat.le_of_lt h)]
  . have htaken := taken_firstProcessors cpus mask
    rw [Nat.min_eq_left (Nat.le_of_not_lt h)] at htaken
    have hpin : pin cpus mask = (firstProcessors cpus mask).1 := by
      rw [pin]
      exact if_neg (by omega)
    rw [hpin, numbers_firstProcessors]

end Pinning

/--
A scan over all processors that takes those which are allowed: the next one, how many it has taken, and which.
-/
structure Scan where
  cpu : Nat := 0
  taken : Nat := 0
  pinned : List Nat := []

namespace Scan

def next? (cpus : Nat) (allowed : List Bool) (s : Scan) : Option Scan :=
  if s.cpu = setSize ∨ s.taken = cpus then none
  else if allowed[s.cpu]? = some true then
    some { cpu := s.cpu + 1, taken := s.taken + 1, pinned := s.pinned ++ [s.cpu] }
  else some { s with cpu := s.cpu + 1 }

inductive Ends (cpus : Nat) (allowed : List Bool) : Scan → Nat → Scan → Prop where
  | over {s : Scan} : s.next? cpus allowed = none → Ends cpus allowed s 0 s
  | next {s s' last : Scan} {steps : Nat} :
    s.next? cpus allowed = some s' → Ends cpus allowed s' steps last → Ends cpus allowed s (steps + 1) last

structure Sound (cpus : Nat) (allowed : List Bool) (s : Scan) : Prop where
  inside : s.cpu ≤ setSize
  enough : s.taken ≤ cpus
  taken : s.taken = s.pinned.length
  pinned : s.pinned = numbers (allowed.take s.cpu)

variable {cpus : Nat} {allowed : List Bool} {s s' : Scan}

theorem sound_start (cpus : Nat) (allowed : List Bool) : Sound cpus allowed {} where
  inside := Nat.zero_le _
  enough := Nat.zero_le _
  taken := rfl
  pinned := rfl

theorem cpu_of_next? (h : s.next? cpus allowed = some s') : s'.cpu = s.cpu + 1 := by
  unfold next? at h
  split at h
  . cases h
  . split at h <;> (cases h; rfl)

theorem Sound.next? (hsound : Sound cpus allowed s) (h : s.next? cpus allowed = some s') : Sound cpus allowed s' := by
  have hinside := hsound.inside
  have henough := hsound.enough
  have hpinned := numbers_take_succ allowed s.cpu
  rw [← hsound.pinned] at hpinned
  unfold Scan.next? at h
  split at h
  . cases h
  . next hgoes =>
    rw [not_or] at hgoes
    split at h
    . next hallowed =>
      cases h
      rw [if_pos hallowed] at hpinned
      exact ⟨by dsimp only; omega, by dsimp only; omega, by simp [hsound.taken], hpinned.symm⟩
    . next hallowed =>
      cases h
      rw [if_neg hallowed, List.append_nil] at hpinned
      exact ⟨by dsimp only; omega, henough, hsound.taken, hpinned.symm⟩

theorem Sound.pinned_of_over (hsound : Sound cpus allowed s) (hsize : allowed.length ≤ setSize)
    (h : s.next? cpus allowed = none)
    : s.pinned = (numbers allowed).take cpus := by
  -- Either all processors were looked at, or enough were taken.
  have hover : s.cpu = setSize ∨ s.taken = cpus := by
    unfold Scan.next? at h
    split at h
    . assumption
    . split at h <;> cases h
  cases hover with
  | inl hlast =>
    have hall : s.pinned = numbers allowed := by rw [hsound.pinned, hlast, List.take_of_length_le hsize]
    have hfew : (numbers allowed).length ≤ cpus := by
      rw [← hall, ← hsound.taken]
      exact hsound.enough
    rw [hall, List.take_of_length_le hfew]
  | inr hcpus =>
    have hprefix := numbers_take_prefix allowed s.cpu
    rw [← hsound.pinned] at hprefix
    rw [← hcpus, hsound.taken]
    exact List.prefix_iff_eq_take.mp hprefix

theorem Sound.ends (hsound : Sound cpus allowed s) (hsize : allowed.length ≤ setSize)
    : ∃ steps last, Ends cpus allowed s steps last ∧ s.cpu + steps ≤ setSize ∧
        last.pinned = (numbers allowed).take cpus := by
  -- The scan looks at no processor twice, so each step leaves one less to look at.
  generalize hleft : setSize - s.cpu = left
  induction left generalizing s with
  | zero =>
    have hover : s.next? cpus allowed = none := by
      have := hsound.inside
      exact if_pos (.inl (by omega))
    exact ⟨0, s, .over hover, hsound.inside, hsound.pinned_of_over hsize hover⟩
  | succ left ih =>
    cases hnext : s.next? cpus allowed with
    | none => exact ⟨0, s, .over hnext, hsound.inside, hsound.pinned_of_over hsize hnext⟩
    | some s' =>
      have hcpu := cpu_of_next? hnext
      rcases ih (hsound.next? hnext) (by omega) with ⟨steps, last, hends, hinside, hpinned⟩
      exact ⟨steps + 1, last, .next hnext hends, by omega, hpinned⟩

end Scan

/--
The bytes that a process can address. A number of 64 bits that has all bits set stands for no limit at all.
-/
def Ceiling.bytes : Ceiling → Nat
  | none => UInt64.size - 1
  | some limit => limit

theorem lower_eq_min {c : Ceiling} {n : Nat} (h : n < UInt64.size) : c.lower n = min n c.bytes := by
  cases c with
  | none => exact (Nat.min_eq_left (Nat.le_pred_of_lt h)).symm
  | some limit => rfl

theorem addressBytes_lt {memoryMib : Nat} (h : memoryMib < UInt32.size) : addressBytes memoryMib < UInt64.size := by
  rw [addressBytes, Resources.mebibyte]
  simp only [UInt32.size, UInt64.size] at h ⊢
  omega

theorem toNat_mul_mebibyte {memoryMib : Nat} (h : memoryMib < UInt32.size)
    : (UInt64.ofNat memoryMib * UInt64.ofNat Resources.mebibyte).toNat = addressBytes memoryMib := by
  have hmemory : (UInt64.ofNat memoryMib).toNat = memoryMib := UInt64.toNat_ofNat_of_lt' (Nat.lt_trans h (by decide))
  rw [UInt64.toNat_mul, hmemory]
  exact Nat.mod_eq_of_lt (addressBytes_lt h)

/--
A box has what it was asked for, but never more than the host. The memory asked for, in units of 2 ^ 20 bytes, is a
number of 64 bits also when it is counted in bytes, and the smaller one of it and of the hard limit is the new limit,
both the soft and the hard one. The scan over the processors is over after one step for each at most, and takes
those to which the box is pinned: the lowest ones that are allowed, as many as are asked for, or all if there are fewer.
-/
theorem bounds_are_as_asked (order : LaunchOrder) (host : Bounds) (hmemory : order.memoryMib < UInt32.size)
    (hsize : host.processors.length ≤ setSize)
    : let bytes := order.memoryMib * Resources.mebibyte
      let bounds := host.ofBox order.cpus order.memoryMib
      (UInt64.ofNat order.memoryMib * UInt64.ofNat Resources.mebibyte).toNat = bytes ∧
      bounds.soft = some (min bytes host.hard.bytes) ∧
      bounds.hard = some (min bytes host.hard.bytes) ∧
      (∃ steps last, Scan.Ends order.cpus host.processors {} steps last ∧ steps ≤ setSize ∧
        last.pinned = numbers bounds.processors) ∧
      (numbers host.processors).Pairwise (· < ·) ∧
      numbers bounds.processors = (numbers host.processors).take order.cpus ∧
      (numbers bounds.processors).length = min order.cpus (numbers host.processors).length ∧
      ((numbers host.processors).length < order.cpus → bounds.processors = host.processors) := by
  intro bytes bounds
  have hlower : host.hard.lower (addressBytes order.memoryMib) = min bytes host.hard.bytes :=
    lower_eq_min (addressBytes_lt hmemory)
  have hpinned : numbers bounds.processors = (numbers host.processors).take order.cpus := numbers_pin _ _
  rcases (Scan.sound_start order.cpus host.processors).ends hsize with ⟨steps, last, hends, hsteps, hlast⟩
  refine ⟨toNat_mul_mebibyte hmemory, congrArg some hlower, congrArg some hlower,
    ⟨steps, last, hends, ?_, hlast.trans hpinned.symm⟩, pairwise_numbers _, hpinned, ?_, pin_of_length_lt⟩
  . exact Nat.le_trans (Nat.le_add_left _ _) hsteps
  . rw [hpinned, List.length_take]

theorem bounds_are_as_asked_scarceHost
    : let host : Bounds := { hard := some 1099511627776, processors := [false, true, true, false, true] }
      (host.ofBox 2 4294967295).hard = some 1099511627776 ∧
      (host.ofBox 2 4294967295).processors = [false, true, true, false, false] ∧
      (∃ steps last, Scan.Ends 2 host.processors {} steps last ∧ steps ≤ setSize ∧ last.pinned = [1, 2]) ∧
      (host.ofBox 4 1).soft = some 1048576 ∧ (host.ofBox 4 1).processors = host.processors := by
  intro host
  let order (cpus memoryMib : Nat) : LaunchOrder :=
    ⟨⟨"01HJK4TNRPQSXYZ8WM6NCVT9R5"⟩, "alpine", cpus, memoryMib, [], []⟩
  have hsize : host.processors.length ≤ setSize := by decide
  have htwo := bounds_are_as_asked (order 2 4294967295) host (by decide) hsize
  have hfour := bounds_are_as_asked (order 4 1) host (by decide) hsize
  rcases htwo with ⟨-, -, hhard, hscan, -⟩
  rcases hfour with ⟨-, hsoft, -, -, -, -, -, hfew⟩
  exact ⟨hhard.trans (by decide +kernel), by decide +kernel, hscan, hsoft.trans (by decide +kernel), hfew (by decide)⟩

end BoxRegistry.Host
