import BoxRegistry.Backend.Errand

/-!
This module contains a backend in memory. Its processes do nothing: they live until they are told to
end, and how it answers is set up beforehand. Some answers take time, so a call is either pending or
replied to, and a pending call is looked at again when the clock has moved on or a process has ended.
-/

namespace BoxRegistry.Simulation

inductive Method where
  | launch
  | terminate
  | kill
  | wait
  | pause
  | resume
  | shutdown
deriving DecidableEq, Repr, Inhabited

namespace Method

def named : List (String × Method) :=
  [("launch", launch), ("terminate", terminate), ("kill", kill), ("wait", wait), ("pause", pause),
   ("resume", resume), ("shutdown", shutdown)]

end Method

def methodOf : Errand → Method
  | .call (.launch _) => .launch
  | .call (.terminate _ false) => .terminate
  | .call (.terminate _ true) => .kill
  | .call (.wait _) => .wait
  | .call (.pause _) => .pause
  | .call (.resume _) => .resume
  | .shutdown => .shutdown

structure Script where
  method : Method
  delay : Nat
  answer : Answer
deriving DecidableEq, Repr, Inhabited

structure Process where
  pid : Pid
  order : LaunchOrder
  ending : Option ProcessEnd := none
  paused : Bool := false
  lost : Bool := false
deriving DecidableEq, Repr, Inhabited

inductive Note where
  | launch (id : BoxId)
  | terminate (pid : Pid) (force : Bool)
  | pause (pid : Pid)
  | resume (pid : Pid)
  | release (pid : Pid)
  | shutdown
deriving DecidableEq, Repr, Inhabited

inductive Event where
  | exit (pid : Pid) (how : ProcessEnd)
  | lose (pid : Pid)
deriving DecidableEq, Repr, Inhabited

structure Backend where
  nextPid : Pid := 10000
  processes : List Process := []
  launchFault : Option String := none
  launchDelay : Nat := 0
  launchPanics : Bool := false
  ignoresRequests : Bool := false
  refusesKill : Bool := false
  scripts : List Script := []
  -- Whether it has nothing to do on a release and on a shutdown.
  plain : Bool := false
  notes : List Note := []
deriving DecidableEq, Repr, Inhabited

namespace Backend

def process? (b : Backend) (pid : Pid) : Option Process :=
  b.processes.find? fun p => p.pid = pid && !p.lost

def modifyProcess (b : Backend) (pid : Pid) (f : Process → Process) : Backend :=
  { b with processes := b.processes.map fun p => if p.pid = pid ∧ !p.lost then f p else p }

def note (b : Backend) (n : Note) : Backend :=
  { b with notes := b.notes ++ [n] }

def unknown (pid : Pid) : Fault :=
  .notFound ("pid " ++ toString pid)

def exit (b : Backend) (pid : Pid) (how : ProcessEnd) : Backend :=
  b.modifyProcess pid fun p => { p with ending := some how }

def lose (b : Backend) (pid : Pid) : Backend :=
  b.modifyProcess pid fun p => { p with lost := true }

def signal (b : Backend) (pid : Pid) (signal : Int) : Backend × Reply :=
  match b.process? pid with
  | none => (b, .failed (unknown pid))
  | some p =>
    if p.ending.isSome then (b, .done) else (b.exit pid (.signaled signal), .done)

def setPaused (b : Backend) (pid : Pid) (paused : Bool) : Backend × Reply :=
  match b.process? pid with
  | none => (b, .failed (unknown pid))
  | some p =>
    if p.ending.isSome then
      (b, .failed (.engine ("pid " ++ toString pid ++ " has exited")))
    else
      (b.modifyProcess pid fun p => { p with paused }, .done)

def launch (b : Backend) (order : LaunchOrder) : Backend × Reply :=
  if b.launchPanics then
    (b, .panicked "fake backend launch panic")
  else
    match b.launchFault with
    | some reason => (b, .failed (.engine reason))
    | none =>
      ({ b with
          nextPid := b.nextPid + 1,
          processes := b.processes ++ [{ pid := b.nextPid, order }] },
        .launched b.nextPid)

def serve (b : Backend) (clock : Nat) : Errand → Backend × Pending
  | .call (.launch order) =>
    (b, .launching order (clock + b.launchDelay))
  | .call (.terminate pid force) =>
    if force then
      if b.refusesKill then
        (b, .replied (.failed (.engine ("kill of pid " ++ toString pid ++ " not permitted"))))
      else
        let (b, reply) := b.signal pid sigKill
        (b, .replied reply)
    else if b.ignoresRequests then
      (b, .replied .done)
    else
      let (b, reply) := b.signal pid sigTerm
      (b, .replied reply)
  | .call (.wait pid) =>
    match b.process? pid with
    | none => (b, .replied (.failed (unknown pid)))
    | some _ => (b, .awaiting pid)
  | .call (.pause pid) =>
    let (b, reply) := b.setPaused pid true
    (b, .replied reply)
  | .call (.resume pid) =>
    let (b, reply) := b.setPaused pid false
    (b, .replied reply)
  | .shutdown => (b, .replied .done)

def success (pid : Pid) (how : ProcessEnd) : Errand → Reply
  | .call (.launch _) => .launched pid
  | .call (.wait _) => .ended how
  | _ => .done

/--
What has become of the wait for the end of a process. An end counts even if the process is lost later.
-/
def awaited (b : Backend) (pid : Pid) : Pending :=
  match b.processes.find? fun p => p.pid = pid with
  | none => .replied (.failed (unknown pid))
  | some p =>
    match p.ending with
    | some how => .replied (.ended how)
    | none =>
      if p.lost then .replied (.failed (.engine ("lost track of pid " ++ toString pid)))
      else .awaiting pid

def pollServed (b : Backend) (clock : Nat) : Pending → Backend × Pending
  | .launching order due =>
    if due ≤ clock then
      let (b, reply) := b.launch order
      (b, .replied reply)
    else (b, .launching order due)
  | .awaiting pid => (b, b.awaited pid)
  | pending => (b, pending)

def poll (b : Backend) (clock : Nat) : Pending → Backend × Pending
  | .held errand answer due =>
    if due ≤ clock then
      match answer with
      | .pass =>
        let (b, pending) := b.serve clock errand
        b.pollServed clock pending
      | .succeed pid how => (b, .replied (success pid how errand))
      | .fail f => (b, .replied (.failed f))
      | .panic message => (b, .replied (.panicked message))
    else (b, .held errand answer due)
  | pending => b.pollServed clock pending

def noteErrand (b : Backend) : Errand → Backend
  | .call (.launch order) => b.note (.launch order.boxId)
  | .call (.terminate pid force) => b.note (.terminate pid force)
  | .call (.wait _) => b
  | .call (.pause pid) => b.note (.pause pid)
  | .call (.resume pid) => b.note (.resume pid)
  | .shutdown => b.note .shutdown

/--
Begin an errand. The first answer that is set up for its kind is used up. A plain backend has nothing
to do on a shutdown.
-/
def begin (b : Backend) (clock : Nat) (errand : Errand) : Backend × Pending :=
  if b.plain ∧ errand = .shutdown then
    (b, .replied .done)
  else
    let b := b.noteErrand errand
    match b.scripts.find? fun s => s.method = methodOf errand with
    | none =>
      (b, .held errand .pass clock)
    | some script =>
      ({ b with scripts := b.scripts.eraseP fun s => s.method = methodOf errand },
        .held errand script.answer (clock + script.delay))

def release (b : Backend) (pid : Pid) : Backend :=
  if b.plain then b else b.note (.release pid)

def launched (b : Backend) : List LaunchOrder :=
  (b.processes.filter fun p => !p.lost).map Process.order

def isAlive (b : Backend) (pid : Pid) : Bool :=
  (b.process? pid).any fun p => p.ending.isNone

def isPaused (b : Backend) (pid : Pid) : Bool :=
  (b.process? pid).any Process.paused

def happen (b : Backend) : Event → Backend
  | .exit pid how => b.exit pid how
  | .lose pid => b.lose pid

def isOver (b : Backend) : Pending → Bool
  | .awaiting pid => b.awaited pid ≠ .awaiting pid
  | _ => false

instance : Engine Backend Event where
  begin := begin
  poll := poll
  release := release
  happen := happen
  isOver := isOver
  due? _ := none
  moveTo b _ := b

end Backend

end BoxRegistry.Simulation
