import BoxRegistry.Snapshot
import BoxRegistry.Time.Span

namespace BoxRegistry.Simulation

inductive Hanging where
  | all
  | these (pids : List Pid)
deriving DecidableEq, Repr, Inhabited

structure Sampler where
  usage : Usage
  unavailable : Bool := false
  panics : Bool := false
  hanging : Hanging := .these []
  taken : Nat := 0
deriving DecidableEq, Repr, Inhabited

namespace Sampler

def new : Sampler :=
  { usage := ⟨⟨0x41480000⟩, 64⟩ }

def hangs (s : Sampler) (pid : Pid) : Bool :=
  match s.hanging with
  | .all => true
  | .these pids => pids.contains pid

/--
Sample a process with a limit of some milliseconds: the milliseconds that it takes and the reading. A
sampler that breaks off takes no sample.
-/
def sample (s : Sampler) (limit : Nat) (pid : Pid) : Sampler × Nat × Option Usage :=
  if s.panics then
    (s, 0, none)
  else
    let counted := { s with taken := s.taken + 1 }
    if s.hangs pid then (counted, limit, none)
    else if s.unavailable ∨ limit = 0 then (counted, 0, none)
    else (counted, 0, some s.usage)

end Sampler

end BoxRegistry.Simulation
