import BoxRegistry.Counters
import BoxRegistry.Registry.Box
import BoxRegistry.Settings

/-!
This module contains the operations on a box. An operation is carried out by a task that has hold of
the box from its first move to its last. Between two moves it waits for the backend, so a move is a
function of the box, of the stage the operation has reached and of the reply. The record of the box
changes in the moves only; what a move does to the rest of the registry is a list of deeds.
-/

namespace BoxRegistry

open Time (Moment Span)

inductive Operation where
  | start
  -- Ask the process to end, and kill it if it has not ended after a grace.
  | stop (grace : Span)
  | pause
  | resume
  -- Take the box out of the registry, if it is active only by `force`, which kills its process.
  | remove (force : Bool)
deriving DecidableEq, Repr, Inhabited

inductive Stage where
  | launching
  -- A suspended process that is to be stopped goes on, since it could not act on a request to end.
  | easing (pid : Pid) (grace : Option Span)
  | asking (pid : Pid) (grace : Span)
  | parting (pid : Pid)
  | killing (pid : Pid)
  | confirming (pid : Pid)
  | pausing (pid : Pid)
  | resuming (pid : Pid)
deriving DecidableEq, Repr, Inhabited

namespace Stage

def call (spec : Spec) : Stage → Call
  | launching => .launch spec.launchOrder
  | easing pid _ => .resume pid
  | asking pid _ => .terminate pid false
  | parting pid => .wait pid
  | killing pid => .terminate pid true
  | confirming pid => .wait pid
  | pausing pid => .pause pid
  | resuming pid => .resume pid

/--
How long the answer is waited for at a stage. The grace of a stop covers both the request to end and
the end.
-/
def bound (limits : Limits) : Stage → Bound
  | launching => .within limits.start
  | asking _ grace => .within grace
  | parting _ => .remaining
  | confirming _ => .within limits.killGrace
  | easing .. | killing _ | pausing _ | resuming _ => .unlimited

end Stage

inductive Deed where
  | count (milestone : Milestone)
  | watch (pid : Pid)
  | disarm
  -- Tell the backend that the process is no longer of interest.
  | release (pid : Pid)
  | unlist
deriving DecidableEq, Repr

inductive Next where
  | wait (stage : Stage)
  | finish (result : Except Fault Unit)
  -- It breaks off, since the backend did so with a message.
  | crash (message : String)

structure Move where
  box : Box
  deeds : List Deed := []
  next : Next

namespace Box

def refuse (b : Box) (f : Fault) : Move :=
  { box := b, next := .finish (.error f) }

def crash (b : Box) (message : String) : Move :=
  { box := b, next := .crash message }

def await (b : Box) (stage : Stage) : Move :=
  { box := b, next := .wait stage }

def withProcess (b : Box) (t : Transition) (go : Pid → Move) : Move :=
  match b.record.status.apply t with
  | .error f => b.refuse f
  | .ok _ =>
    match b.process with
    | .error f => b.refuse f
    | .ok pid => go pid

def commit (b : Box) (change : Except Fault Record) : Move :=
  match change with
  | .error f => b.refuse f
  | .ok record => { box := { b with record }, next := .finish (.ok ()) }

def unlist (b : Box) (deeds : List Deed := []) : Move :=
  { box := { b with removed := true }, deeds := deeds ++ [.unlist, .disarm, .count .removed],
    next := .finish (.ok ()) }

def part (b : Box) (pid : Pid) : Option Span → Move
  | some grace => b.await (.asking pid grace)
  | none => b.await (.killing pid)

def beginStop (b : Box) (grace : Option Span) : Move :=
  b.withProcess .stop fun pid =>
    let m := if b.record.status = .paused then b.await (.easing pid grace) else b.part pid grace
    { m with deeds := .disarm :: m.deeds }

/--
Complete a stop. The stop that a removal begins with is followed by the removal.
-/
def settleStop (b : Box) (op : Operation) (now : Moment) (pid : Pid) (forced : Bool)
    (code : Option Int) : Move :=
  match b.record.markTerminated now .stop (.stopped forced code) with
  | .error f => b.refuse f
  | .ok record =>
    let b := { b with record, sample := none }
    let deeds := [.release pid, .count (.ended .stopped true)]
    match op with
    | .remove _ => b.unlist deeds
    | _ => { box := b, deeds, next := .finish (.ok ()) }

def failStart (b : Box) (now : Moment) (message : String) : Move :=
  match b.record.markStartFailed now message with
  | .error f => b.refuse f
  | .ok record =>
    { box := { b with record }, deeds := [.count (.ended .failed false)],
      next := .finish (.error (.startFailed message)) }

def succeedStart (b : Box) (now : Moment) (pid : Pid) : Move :=
  match b.record.markRunning now pid with
  | .error f => b.refuse f
  | .ok record =>
    { box := { b with record }, deeds := [.count .started, .watch pid], next := .finish (.ok ()) }

end Box

def Reply.launch (limits : Limits) : Reply → Except String Pid
  | launched pid => .ok pid
  | failed f => .error f.message
  | panicked _ => .error "isolation backend panicked during launch"
  | _ => .error ("launch did not complete within " ++ limits.start.render)

namespace Operation

def enter (op : Operation) (b : Box) : Move :=
  if b.removed then
    b.refuse (.notFound b.spec.id.text)
  else
    match op with
    | start =>
      match b.record.status.apply .start with
      | .error f => b.refuse f
      | .ok _ => b.await .launching
    | stop grace => b.beginStop (some grace)
    | pause => b.withProcess .pause fun pid => b.await (.pausing pid)
    | resume => b.withProcess .resume fun pid => b.await (.resuming pid)
    | remove true => if b.record.status.isActive then b.beginStop none else b.unlist
    | remove false =>
      match b.record.status.ensureRemovable with
      | .error f => b.refuse f
      | .ok _ => b.unlist

def proceed (op : Operation) (limits : Limits) (now : Moment) (b : Box) :
    Stage → Reply → Move
  | .launching, reply =>
    match reply.launch limits with
    | .ok pid => b.succeedStart now pid
    | .error message => b.failStart now message
  | _, .panicked message => b.crash message
  | .easing pid grace, _ => b.part pid grace
  | .asking pid _, .done => b.await (.parting pid)
  | .asking pid _, _ => b.await (.killing pid)
  | .parting pid, .ended how => b.settleStop op now pid false how.code
  | .parting pid, _ => b.await (.killing pid)
  | .killing pid, .failed f =>
    { b.refuse (.stopFailed f.message) with deeds := [.watch pid] }
  | .killing pid, _ => b.await (.confirming pid)
  | .confirming pid, .ended how => b.settleStop op now pid true how.code
  | .confirming pid, _ => b.settleStop op now pid true none
  | .pausing _, .failed f => b.refuse f
  | .pausing _, _ => b.commit (b.record.markPaused now)
  | .resuming _, .failed f => b.refuse f
  | .resuming _, _ => b.commit (b.record.markResumed now)

end Operation

end BoxRegistry
