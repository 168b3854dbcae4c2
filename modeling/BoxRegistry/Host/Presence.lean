import BoxRegistry.Emulation.Controller

namespace BoxRegistry.Host

def signed (pid : Pid) : Int :=
  (BitVec.ofNat 32 pid).toInt

inductive Presence where
  | missing
  | ended
  | running
deriving DecidableEq, Repr, Inhabited

namespace Presence

/--
Whether signals can be sent to a process of a number. Zero stands for the group of the caller and minus
one for everything, which are always there.
-/
def isAlive (p : Presence) (pid : Pid) : Bool :=
  p ≠ missing || signed pid = 0 || signed pid = -1

def sampleFault? (p : Presence) (pid : Pid) : Option Fault :=
  match p with
  | missing => some (.unavailable ("process " ++ toString (signed pid) ++ " not found"))
  | ended => some (.unavailable ("process " ++ toString (signed pid) ++ " has exited"))
  | running => none

end Presence

namespace ProcessController

variable {κ : Type} [System κ]

def presence (c : ProcessController κ) (pid : Pid) : Presence :=
  if System.isReachable c.kernel pid then .running
  else if c.table.live.contains pid then .ended
  else .missing

def badGroup : String := "EINVAL: Invalid argument"

def signalGroup (c : ProcessController κ) (pid : Pid) (signal : Signal) :
    Except String (ProcessController κ × Bool) :=
  if signed pid < 0 then .error badGroup else .ok (c.signal pid signal)

end ProcessController

end BoxRegistry.Host
