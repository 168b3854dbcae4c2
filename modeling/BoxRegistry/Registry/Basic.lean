import BoxRegistry.Registry.ExitWatch

/-!
This module contains the registry of boxes: its state, how boxes are created, looked up and listed, and
the samples it keeps. What changes a box after its creation is the work of tasks, which is in
`BoxRegistry.Registry.Task`.
-/

namespace BoxRegistry

open Time (Moment)

/--
The place of a box among all boxes that were ever created, which orders them by their creation. A box
keeps its place when it is removed, so a task that has looked it up finds it removed.
-/
abbrev Slot := Nat

inductive Duty where
  -- Carry out an operation, and for that get hold of the box first.
  | enter (op : Operation)
  | work (op : Operation) (stage : Stage)
  | post (pid : Pid)
  | watch (pid : Pid)
  -- Put the end of a process on record, and for that get hold of the box first.
  | notice (pid : Pid) (result : Except Fault ProcessEnd)

structure Task where
  slot : Slot
  duty : Duty

structure Registry where
  limits : Limits := {}
  ids : IdSource := {}
  -- All boxes that were ever created, in the order of their creation.
  boxes : List Box := []
  names : List (String × BoxId) := []
  counters : Counters := {}
  -- The tasks that are not over, and the number of the next one.
  tasks : List (TaskId × Task) := []
  nextTask : TaskId := 0

namespace Registry

def registered (r : Registry) : List Box :=
  r.boxes.filter fun b => !b.removed

def count (r : Registry) : Nat :=
  r.registered.length

def slotOf? (r : Registry) (id : String) : Option Slot :=
  r.boxes.findIdx? fun b => !b.removed && b.spec.id.text = id

def slotNamed? (r : Registry) (key : String) : Option Slot := do
  let slot ← r.slotOf? (← r.names.lookup key).text
  let b ← r.boxes[slot]?
  if b.spec.answersTo key then slot else none

def lookup (r : Registry) (key : String) : Except Fault Slot :=
  match r.slotOf? key <|> r.slotNamed? key with
  | some slot => .ok slot
  | none => .error (.notFound key)

def exists? (r : Registry) (key : String) : Bool :=
  (r.lookup key).isOk

def modifyBox (r : Registry) (slot : Slot) (f : Box → Box) : Registry :=
  { r with boxes := r.boxes.modify slot f }

def nameTaken (name : String) : Fault :=
  .invalidSpec ("box name '" ++ name ++ "' is already in use")

def idsExhausted : Fault :=
  .internal "box id space exhausted: Ulid random bits would overflow"

def isTaken (r : Registry) : Option String → Bool
  | some name => (r.names.lookup name).isSome
  | none => false

def add (r : Registry) (spec : Spec) (ids : IdSource) : Registry :=
  let named := spec.name.toList.map fun name => (name, spec.id)
  { r with
    ids, boxes := r.boxes ++ [.new spec], names := named ++ r.names,
    counters := r.counters.record .created }

def create (r : Registry) (request : Request) (now : Moment) (clock chance : Nat) :
    Except Fault (Snapshot × Registry) := do
  let granted ← request.resolve
  if r.isTaken request.name then
    throw (nameTaken (request.name.getD ""))
  match r.ids.draw? clock chance with
  | none => throw idsExhausted
  | some (number, ids) =>
    let spec := Spec.freeze (.ofNumber number) request granted now
    return (.of spec (.new now) none, r.add spec ids)

def listing (r : Registry) : List (Slot × Record) :=
  (r.boxes.zipIdx.filter fun (b, _) => !b.removed).map fun (b, slot) => (slot, b.record)

def active (r : Registry) : List Slot :=
  (r.listing.filter fun (_, record) => record.status.isActive).map (·.1)

/--
The snapshot of a record of a box after an attempt to sample its process, if it has one that is not
suspended. A reading is kept for the snapshots to come.
-/
def describe (r : Registry) (slot : Slot) (record : Record) (reading : Option Usage) :
    Option Snapshot × Registry :=
  match r.boxes[slot]? with
  | none => (none, r)
  | some b =>
    match Box.sampledPid? record with
    | none => (some (.of b.spec record none), r)
    | some _ =>
      (some (.of b.spec record (some (b.usageAfter reading))),
        r.modifyBox slot fun b => { b with sample := reading <|> b.sample })

end Registry

end BoxRegistry
