import BoxRegistry.Service.Basic
import BoxRegistry.Backend.Errand
import BoxRegistry.Simulation.Sampler

/-!
This module contains a service in a world of its own: a clock that counts milliseconds and moves only
when nothing is left to do, a backend and a sampler in memory, and a line of tasks that have something
to do. A task that gets an answer at once goes on at once; the others come in the order in which they
were given something to do, and things that fall due at one time in the order in which they were begun.
-/

namespace BoxRegistry.Simulation

inductive Job (ε : Type) where
  | task (task : TaskId)
  | event (event : ε)

def Job.isTurnOf (task : TaskId) : Job ε → Bool
  | .task other => other = task
  | .event _ => false

/--
A time to wait for. What falls due at one time happens in the order of the serial numbers.
-/
structure Timer where
  due : Nat
  serial : Nat
deriving DecidableEq, Repr, Inhabited

def Timer.precedes (a b : Timer) : Bool :=
  a.due < b.due || a.due = b.due && a.serial ≤ b.serial

structure Flight where
  task : TaskId
  pending : Pending
  serial : Nat
  -- The end of the time that the answer is waited for.
  deadline : Option Timer
deriving Repr, Inhabited

namespace Flight

def timers (f : Flight) : List Timer :=
  (f.pending.due?.map fun due => ⟨due, f.serial⟩).toList ++ f.deadline.toList

end Flight

structure World (β ε : Type) where
  clock : Nat := 0
  now : Time.Moment := ⟨0, 0⟩
  service : Service
  backend : β
  sampler : Sampler := .new
  flights : List Flight := []
  ready : List (Job ε) := []
  agenda : List (Timer × ε) := []
  serial : Nat := 0
  results : List (TaskId × Except Fault Unit) := []

namespace World

variable {β ε : Type} [Engine β ε]

def enqueue (w : World β ε) (job : Job ε) : World β ε :=
  match job with
  | .task task =>
    if w.ready.any (Job.isTurnOf task) then w else { w with ready := w.ready ++ [job] }
  | .event _ => { w with ready := w.ready ++ [job] }

def timer (w : World β ε) (span : Nat) : Timer :=
  ⟨w.clock + span, w.serial⟩

/--
Begin a call of a task, which then looks at once what has become of it. A call that has to be answered
in the time that is left takes over the deadline of the call before it.
-/
def startCall (w : World β ε) (task : TaskId) (call : Call) (bound : Bound)
    (previous : Option Timer) : World β ε :=
  let (backend, pending) := Engine.begin w.backend w.clock (.call call)
  let deadline :=
    match bound with
    | .unlimited => none
    | .within span => some (w.timer span.ticks)
    | .remaining => previous
  { w with
    backend, serial := w.serial + 1,
    flights := w.flights ++ [{ task, pending, serial := w.serial, deadline }],
    ready := .task task :: w.ready }

def perform (previous : Option Timer) (w : World β ε) : Effect → World β ε
  | .call task call bound => w.startCall task call bound previous
  | .release pid => { w with backend := Engine.release w.backend pid }
  | .wake task => w.enqueue (.task task)
  | .settled task result => { w with results := (task, result) :: w.results }

/--
Take over a change of the service with its effects. Calls of tasks that have gone are dropped.
-/
def update (w : World β ε) (change : Service × List Effect) (previous : Option Timer := none) :
    World β ε :=
  let w := change.2.foldl (perform previous) { w with service := change.1 }
  { w with flights := w.flights.filter fun f => (w.service.registry.task? f.task).isSome }

/--
The turn of a task: it looks at its call, if it waits for one, and at the deadline of the call if there
is no answer.
-/
def runTask (w : World β ε) (task : TaskId) : World β ε :=
  match w.flights.find? fun f => f.task = task with
  | none => w.update (w.service.run w.now task)
  | some f =>
    let (backend, pending) := Engine.poll w.backend w.clock f.pending
    let others := w.flights.filter fun f => f.task ≠ task
    match pending with
    | .replied reply =>
      let w := { w with backend, flights := others }
      w.update (w.service.answer w.now task reply) f.deadline
    | pending =>
      if f.deadline.any fun d => d.due ≤ w.clock then
        let w := { w with backend, flights := others }
        w.update (w.service.answer w.now task .late) f.deadline
      else
        let serial := if pending = f.pending then f.serial else w.serial
        { w with
          backend, serial := w.serial + 1, flights := others ++ [{ f with pending, serial }] }

def noticing (w : World β ε) (change : World β ε → World β ε) : World β ε :=
  let after := change w
  let ended := after.flights.filter fun f =>
    !Engine.isOver w.backend f.pending && Engine.isOver after.backend f.pending
  ended.foldl (fun w f => w.enqueue (.task f.task)) after

def runJob (w : World β ε) : Job ε → World β ε
  | .task task => w.noticing fun w => w.runTask task
  | .event event => w.noticing fun w => { w with backend := Engine.happen w.backend event }

def settle : Nat → World β ε → World β ε
  | 0, w => w
  | fuel + 1, w =>
    match w.ready with
    | [] => w
    | job :: ready => settle fuel ({ w with ready }.runJob job)

def timers (w : World β ε) : List (Timer × Job ε) :=
  w.flights.flatMap (fun f => f.timers.map fun t => (t, .task f.task)) ++
    w.agenda.map fun (t, event) => (t, .event event)

def moveTo (w : World β ε) (clock : Nat) : World β ε :=
  let due := (w.timers.filter fun (t, _) => t.due ≤ clock).mergeSort fun a b => a.1.precedes b.1
  let w := { w with clock, agenda := w.agenda.filter fun (t, _) => clock < t.due }
  let w := w.noticing fun w => { w with backend := Engine.moveTo w.backend clock }
  (due.map (·.2)).foldl enqueue w

def dues (w : World β ε) : List Nat :=
  w.timers.map (·.1.due) ++ (Engine.due? w.backend).toList

def schedule (w : World β ε) (delay : Nat) (event : ε) : World β ε :=
  if delay = 0 then w.enqueue (.event event)
  else { w with agenda := w.agenda ++ [(w.timer delay, event)], serial := w.serial + 1 }

end World

end BoxRegistry.Simulation
