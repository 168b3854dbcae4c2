import BoxRegistry.Backend.Call

namespace BoxRegistry

inductive Errand where
  | call (call : Call)
  | shutdown
deriving DecidableEq, Repr, Inhabited

inductive Answer where
  | pass
  -- Succeed, with a process if it is a launch and with an end if it is a wait.
  | succeed (pid : Pid) (how : ProcessEnd)
  | fail (fault : Fault)
  | panic (message : String)
deriving DecidableEq, Repr, Inhabited

inductive Pending where
  | held (errand : Errand) (answer : Answer) (due : Nat)
  | launching (order : LaunchOrder) (due : Nat)
  -- The end of a process is waited for, which the backend knows by a number.
  | awaiting (source : Nat)
  | replied (reply : Reply)
deriving DecidableEq, Repr, Inhabited

namespace Pending

def due? : Pending → Option Nat
  | held _ _ due | launching _ due => some due
  | awaiting _ | replied _ => none

end Pending

class Engine (β : Type) (ε : outParam Type) where
  begin : β → Nat → Errand → β × Pending
  poll : β → Nat → Pending → β × Pending
  release : β → Pid → β
  happen : β → ε → β
  -- Whether the end of a process that an errand waits for is there.
  isOver : β → Pending → Bool
  -- The next time at which something happens by itself.
  due? : β → Option Nat
  moveTo : β → Nat → β

end BoxRegistry
