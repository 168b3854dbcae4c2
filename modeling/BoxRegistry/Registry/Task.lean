import BoxRegistry.Registry.Basic
import BoxRegistry.Text.Quoted

/-!
This module contains the work of tasks. A registry is a machine that is driven by two kinds of event:
the turn of a task, and the reply to a call that a task waits for. Both give the changed registry and
a list of effects: calls to the backend, tasks that have something to do, and results. Nothing is said
about the order in which tasks get their turns, so what holds for all events holds for all schedules.
-/

namespace BoxRegistry

open Time (Moment)

inductive Effect where
  | call (task : TaskId) (call : Call) (bound : Bound)
  -- The backend is told that a process is no longer of interest.
  | release (pid : Pid)
  | wake (task : TaskId)
  | settled (task : TaskId) (result : Except Fault Unit)

def Fault.brokenOff (task : TaskId) (message : String) : Fault :=
  .internal ("box operation task failed: task " ++ toString task ++ " panicked with message " ++
    Text.quoted message)

def Duty.isVigil : Duty → Bool
  | post _ | watch _ => true
  | _ => false

namespace Registry

def task? (r : Registry) (task : TaskId) : Option Task :=
  r.tasks.lookup task

def dropTask (r : Registry) (task : TaskId) : Registry :=
  { r with tasks := r.tasks.filter fun entry => entry.1 ≠ task }

def assign (r : Registry) (task : TaskId) (slot : Slot) (duty : Duty) : Registry :=
  { r with tasks := (task, ⟨slot, duty⟩) :: (r.dropTask task).tasks }

def spawn (r : Registry) (slot : Slot) (duty : Duty) : TaskId × Registry :=
  (r.nextTask, { (r.assign r.nextTask slot duty) with nextTask := r.nextTask + 1 })

def begin (r : Registry) (slot : Slot) (op : Operation) : TaskId × Registry × List Effect :=
  let (task, r) := r.spawn slot (.enter op)
  (task, r, [.wake task])

/--
End the watch on a box. A watch that already knows how the process ended finds out for itself.
-/
def disarm (r : Registry) (slot : Slot) (b : Box) : Registry :=
  let r := r.modifyBox slot fun b => { b with watch := none }
  match b.watch with
  | none => r
  | some task =>
    match r.task? task with
    | some t => if t.duty.isVigil then r.dropTask task else r
    | none => r

def perform (r : Registry) (slot : Slot) (b : Box) : Deed → Registry × List Effect
  | .count milestone => ({ r with counters := r.counters.record milestone }, [])
  | .watch pid =>
    let (task, r) := (r.disarm slot b).spawn slot (.post pid)
    (r.modifyBox slot fun b => { b with watch := some task }, [.wake task])
  | .disarm => (r.disarm slot b, [])
  | .release pid => (r, [.release pid])
  | .unlist =>
    ({ r with names := r.names.filter fun entry => some entry.1 ≠ b.spec.name }, [])

def performAll (r : Registry) (slot : Slot) : List Deed → Registry × List Effect
  | [] => (r, [])
  | deed :: deeds =>
    match r.boxes[slot]? with
    | none => (r, [])
    | some b =>
      let (r, effects) := r.perform slot b deed
      let (r, more) := r.performAll slot deeds
      (r, effects ++ more)

def leave (r : Registry) (slot : Slot) (task : TaskId) : Registry × List Effect :=
  let r := (r.modifyBox slot Box.handOver).dropTask task
  match r.boxes[slot]? >>= Box.holder with
  | some next => (r, [.wake next])
  | none => (r, [])

def apply (r : Registry) (slot : Slot) (task : TaskId) (op : Operation) (m : Move) :
    Registry × List Effect :=
  let (r, effects) := (r.modifyBox slot fun _ => m.box).performAll slot m.deeds
  match m.next with
  | .wait stage =>
    (r.assign task slot (.work op stage),
      effects ++ [.call task (stage.call m.box.spec) (stage.bound r.limits)])
  | .finish result =>
    let (r, woken) := r.leave slot task
    (r, effects ++ woken ++ [.settled task result])
  | .crash message =>
    let (r, woken) := r.leave slot task
    (r, effects ++ woken ++ [.settled task (.error (.brokenOff task message))])

def withBox (r : Registry) (slot : Slot) (task : TaskId) (b : Box)
    (work : Registry → Box → Registry × List Effect) : Registry × List Effect :=
  let (held, b) := b.claim task
  let r := r.modifyBox slot fun _ => b
  if held then work r b else (r, [])

def notice (r : Registry) (now : Moment) (slot : Slot) (task : TaskId) (pid : Pid)
    (result : Except Fault ProcessEnd) (b : Box) : Registry × List Effect :=
  let (b, deeds) := b.noticeEnd now task pid result
  let (r, effects) := (r.modifyBox slot fun _ => b).performAll slot deeds
  let (r, woken) := r.leave slot task
  (r, effects ++ woken)

def run (r : Registry) (now : Moment) (task : TaskId) : Registry × List Effect :=
  match r.task? task with
  | none => (r, [])
  | some ⟨slot, duty⟩ =>
    match r.boxes[slot]? with
    | none => (r, [])
    | some b =>
      match duty with
      | .enter op => r.withBox slot task b fun r b => r.apply slot task op (op.enter b)
      | .post pid => (r.assign task slot (.watch pid), [.call task (.wait pid) .unlimited])
      | .notice pid result => r.withBox slot task b fun r b => r.notice now slot task pid result b
      | .work .. | .watch _ => (r, [])

def answer (r : Registry) (now : Moment) (task : TaskId) (reply : Reply) :
    Registry × List Effect :=
  match r.task? task with
  | none => (r, [])
  | some ⟨slot, duty⟩ =>
    match r.boxes[slot]? with
    | none => (r, [])
    | some b =>
      match duty with
      | .work op stage => r.apply slot task op (op.proceed r.limits now b stage reply)
      | .watch pid =>
        match reply with
        | .panicked _ => (r.dropTask task, [])
        | _ => (r.assign task slot (.notice pid reply.ending)).run now task
      | .enter _ | .post _ | .notice .. => (r, [])

end Registry

end BoxRegistry
