import BoxRegistry.Emulation.Controller
import BoxRegistry.Proofs.Host.Controller

namespace BoxRegistry.Emulation

open Host (Numbering Bounds Signal System)

namespace Kernel

open Shell (Image Act Streams)

variable {k k' : Kernel} {pid : Pid}

theorem nextPid_become (k : Kernel) (pid : Pid) (image : Image) : (k.become pid image).nextPid = k.nextPid := by
  unfold become
  split
  . rfl
  . rfl
  . split
    . rfl
    . split
      . split <;> rfl
      . rfl

theorem nextPid_add (k : Kernel) (group box : Option Pid) (image : Image) (streams : Streams) (ignored : List Signal)
    (bounds : Bounds)
    : k.nextPid < (k.add group box image streams ignored bounds).nextPid := by
  rw [add, nextPid_become]
  exact Nat.lt_succ_self _

theorem nextPid_act (pid : Pid) (k : Kernel) (a : Act) : k.nextPid ≤ (act pid k a).nextPid := by
  unfold act
  split
  . exact Nat.le_refl _
  . cases a with
    | spawn image streams ignored => exact Nat.le_of_lt (nextPid_add k _ _ _ _ _ _)
    | exec image streams ignored =>
      simp only [nextPid_become]
      exact Nat.le_refl _
    | write | signal | bound | exit => exact Nat.le_refl _

theorem nextPid_acts (pid : Pid) (k : Kernel) (acts : List Act) : k.nextPid ≤ (acts.foldl (act pid) k).nextPid := by
  induction acts generalizing k with
  | nil => exact Nat.le_refl _
  | cons a acts ih => exact Nat.le_trans (nextPid_act pid k a) (ih _)

theorem nextPid_stepProcess {p : Process} (h : k.stepProcess p = some k') : k.nextPid ≤ k'.nextPid := by
  unfold stepProcess at h
  split at h
  . cases h
  . split at h
    . cases h
    . split at h
      . cases h
        exact Nat.le_refl _
      . cases h
    . rcases Option.map_eq_some_iff.mp h with ⟨⟨s, acts⟩, -, rfl⟩
      exact nextPid_acts p.pid (k.modify p.pid _) acts

theorem nextPid_settle (fuel : Nat) (k : Kernel) : k.nextPid ≤ (k.settle fuel).nextPid := by
  induction fuel generalizing k with
  | zero => exact Nat.le_refl _
  | succ fuel ih =>
    rw [settle]
    split
    . next k' hstep =>
      rcases List.exists_of_findSome?_eq_some hstep with ⟨p, -, hp⟩
      split at hp
      . cases hp
      . exact Nat.le_trans (nextPid_stepProcess hp) (ih k')
    . exact Nat.le_refl _

theorem nextPid_moveTo (k : Kernel) (clock : Nat) : k.nextPid ≤ (k.moveTo clock).nextPid :=
  nextPid_settle endurance { k with clock, processes := k.processes.map fun p => { p with quota := pace } }

end Kernel

instance : Numbering Kernel where
  next := Kernel.nextPid
  start {k k' image args env bounds pid} started := by
    simp only [System.start] at started
    split at started
    . cases started
    . cases started
      exact ⟨Nat.le_refl _, Nat.lt_of_lt_of_le (Kernel.nextPid_add k _ _ _ _ _ _) (Kernel.nextPid_settle _ _)⟩
  send k target signal := Kernel.nextPid_settle _ (k.send target signal)
  moveTo := Kernel.nextPid_moveTo

end BoxRegistry.Emulation
