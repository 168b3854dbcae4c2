import BoxRegistry.Backend.Errand

/-!
This module contains the table of the processes that a backend has launched. A process is registered
before anything else happens to it. Its end is published once on a channel of its own, so whoever has
begun to wait learns of it even if the process has left the table. It leaves the table once its end is
published and it was released, in whichever order, and nobody else's entry is touched.
-/

namespace BoxRegistry.Host

structure Child where
  channel : Nat
  released : Bool := false
deriving DecidableEq, Repr, Inhabited

/--
What is published of a process: how it ended, or why that is not known.
-/
abbrev Published := Except String ProcessEnd

def answer (pid : Pid) : Published → Reply
  | .ok how => .ended how
  | .error reason =>
    .failed (.engine ("failed to wait for process " ++ toString pid ++ ": " ++ reason))

structure Channel where
  pid : Pid
  result : Option Published := none

def Channel.reply? (channel : Channel) : Option Reply :=
  channel.result.map (answer channel.pid)

structure ChildTable where
  children : List (Pid × Child) := []
  channels : List Channel := []

namespace ChildTable

def child? (t : ChildTable) (pid : Pid) : Option Child :=
  t.children.lookup pid

def erase (t : ChildTable) (pid : Pid) : ChildTable :=
  { t with children := t.children.filter fun entry => entry.1 ≠ pid }

def register (t : ChildTable) (pid : Pid) : ChildTable :=
  { children := (pid, { channel := t.channels.length }) :: (t.erase pid).children,
    channels := t.channels ++ [{ pid }] }

def published? (t : ChildTable) (channel : Nat) : Option Published :=
  t.channels[channel]?.bind Channel.result

def publish (t : ChildTable) (channel : Nat) (result : Published) : ChildTable :=
  { t with channels := t.channels.modify channel fun channel => { channel with result := some result } }

def prune (t : ChildTable) (pid : Pid) : ChildTable :=
  match t.child? pid with
  | some child => if child.released then t.erase pid else t
  | none => t

def release (t : ChildTable) (pid : Pid) : ChildTable :=
  match t.child? pid with
  | none => t
  | some child =>
    if (t.published? child.channel).isSome then t.erase pid
    else
      { t with
        children := t.children.map fun entry =>
          if entry.1 = pid then (pid, { child with released := true }) else entry }

def unmanaged (pid : Pid) : Fault :=
  .engine ("process " ++ toString pid ++ " is not managed by this backend")

def receiver (t : ChildTable) (pid : Pid) : Except Fault Nat :=
  match t.child? pid with
  | some child => .ok child.channel
  | none => .error (unmanaged pid)

def hasExited (t : ChildTable) (pid : Pid) : Except Fault Bool := do
  return (t.published? (← t.receiver pid)).isSome

def wait (t : ChildTable) (pid : Pid) : Pending :=
  match t.receiver pid with
  | .ok channel => .awaiting channel
  | .error f => .replied (.failed f)

def hear (t : ChildTable) : Pending → Pending
  | .awaiting channel =>
    match t.channels[channel]?.bind Channel.reply? with
    | some reply => .replied reply
    | none => .awaiting channel
  | pending => pending

def live (t : ChildTable) : List Pid :=
  (t.children.filter fun entry => (t.published? entry.2.channel).isNone).map (·.1)

end ChildTable

end BoxRegistry.Host
