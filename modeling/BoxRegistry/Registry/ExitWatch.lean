import BoxRegistry.Registry.Operation

/-!
This module contains what the end of a process means for its box. A watch waits for the end of the
process outside of any operation, and then waits for the box like an operation does. By that time the
box may have been stopped or removed, and then the watch does nothing.
-/

namespace BoxRegistry

open Time (Moment)

/--
How the end of a process is put on record, by the status of its box. A box that was suspended counts as
stopped whatever happened to its process.
-/
def Status.closing (s : Status) (result : Except Fault ProcessEnd) : Transition × Ending :=
  match s, result with
  | .paused, .ok how => (.stop, .terminated how.code how.signal)
  | .paused, .error f => (.stop, .backendError f.message)
  | _, .ok ⟨some code, _⟩ => (.exit, .exited code)
  | _, .ok ⟨none, signal⟩ => (.fail, .crashed signal)
  | _, .error f => (.fail, .backendError f.message)

def Reply.ending : Reply → Except Fault ProcessEnd
  | ended how => .ok how
  | failed f => .error f
  | _ => .error (.internal "exit status vanished")

namespace Box

/--
Put the end of a process on record, and the deeds that go with it. A watch that no longer stands, a box
that was removed and a process that is not that of the box leave everything as it is.
-/
def noticeEnd (b : Box) (now : Moment) (task : TaskId) (pid : Pid)
    (result : Except Fault ProcessEnd) : Box × List Deed :=
  if b.watch ≠ some task ∨ b.removed ∨ b.record.pid ≠ some pid then
    (b, [])
  else
    let (transition, ending) := b.record.status.closing result
    match b.record.markTerminated now transition ending with
    | .error _ => (b, [])
    | .ok record =>
      ({ b with record, sample := none },
        [.disarm, .release pid, .count (.ended record.status true)])

end Box

end BoxRegistry
