import BoxRegistry.Lifecycle.Status

namespace BoxRegistry

inductive Milestone where
  | created
  | started
  -- The box reached a terminal status, from an active one if `wasActive`.
  | ended (status : Status) (wasActive : Bool)
  | removed
deriving DecidableEq, Repr

structure Counters where
  created : Nat := 0
  started : Nat := 0
  stopped : Nat := 0
  exited : Nat := 0
  failed : Nat := 0
  removed : Nat := 0
  active : Nat := 0
deriving DecidableEq, Repr, Inhabited

namespace Counters

/--
Count an end under the status it led to. The number of active boxes does not go below zero.
-/
def recordEnd (c : Counters) (status : Status) (wasActive : Bool) : Counters :=
  let active := if wasActive then c.active - 1 else c.active
  match status with
  | .stopped => { c with stopped := c.stopped + 1, active }
  | .exited => { c with exited := c.exited + 1, active }
  | .failed => { c with failed := c.failed + 1, active }
  | _ => c

def record (c : Counters) : Milestone → Counters
  | .created => { c with created := c.created + 1 }
  | .started => { c with started := c.started + 1, active := c.active + 1 }
  | .ended status wasActive => c.recordEnd status wasActive
  | .removed => { c with removed := c.removed + 1 }

def toList (c : Counters) : List Nat :=
  [c.created, c.started, c.stopped, c.exited, c.failed, c.removed, c.active]

end Counters

end BoxRegistry
