import BoxRegistry.Backend.Call
import BoxRegistry.Snapshot

namespace BoxRegistry

abbrev TaskId := Nat

structure Box where
  spec : Spec
  record : Record
  -- The task that watches the process; it acts only for as long as it stands here.
  watch : Option TaskId := none
  -- The last usage that was sampled since the box was launched.
  sample : Option Usage := none
  removed : Bool := false
  holder : Option TaskId := none
  queue : List TaskId := []
deriving DecidableEq, Repr, Inhabited

namespace Box

def new (spec : Spec) : Box :=
  { spec, record := .new spec.createdAt }

/--
Let a task get hold of the box if nobody else has, or line it up otherwise. The first component tells
whether the task has the box.
-/
def claim (b : Box) (task : TaskId) : Bool × Box :=
  match b.holder with
  | none => (true, { b with holder := some task })
  | some holder =>
    if holder = task then (true, b)
    else if b.queue.contains task then (false, b)
    else (false, { b with queue := b.queue ++ [task] })

def handOver (b : Box) : Box :=
  { b with holder := b.queue.head?, queue := b.queue.tail }

def process (b : Box) : Except Fault Pid :=
  match b.record.pid with
  | some pid => .ok pid
  | none => .error (.internal ("active box " ++ b.spec.id.text ++ " has no pid"))

def sampledPid? (record : Record) : Option Pid :=
  if record.status = .running then record.pid else none

/--
The usage that a snapshot shows after an attempt to sample it: the reading if there is one, or else the
last one, or zero.
-/
def usageAfter (b : Box) (reading : Option Usage) : Usage :=
  reading.getD (b.sample.getD .zero)

end Box

end BoxRegistry
