import BoxRegistry.Fault

/-!
This module contains the statuses of a box, the transitions between them and the one table that
decides which transition leads where. Every other question about a status is answered from that
table.
-/

namespace BoxRegistry

inductive Status where
  | created
  | running
  | paused
  | stopped
  | exited
  -- It could not be launched, its process crashed, or its process was lost.
  | failed
deriving DecidableEq, Repr, Inhabited

inductive Transition where
  | start
  | startFailed
  | pause
  | resume
  | stop
  | exit
  | fail
deriving DecidableEq, Repr, Inhabited

namespace Transition

def all : List Transition :=
  [start, startFailed, pause, resume, stop, exit, fail]

theorem mem_all (t : Transition) : t ∈ all := by
  cases t <;> decide

def verb : Transition → String
  | start => "start"
  | startFailed => "fail the start of"
  | pause => "pause"
  | resume => "resume"
  | stop => "stop"
  | exit => "exit"
  | fail => "fail"

def name : Transition → String
  | start => "start"
  | startFailed => "start_failed"
  | pause => "pause"
  | resume => "resume"
  | stop => "stop"
  | exit => "exit"
  | fail => "fail"

def named : List (String × Transition) :=
  all.map fun t => (t.name, t)

end Transition

namespace Status

def all : List Status :=
  [created, running, paused, stopped, exited, failed]

theorem mem_all (s : Status) : s ∈ all := by
  cases s <;> decide

def name : Status → String
  | created => "created"
  | running => "running"
  | paused => "paused"
  | stopped => "stopped"
  | exited => "exited"
  | failed => "failed"

def named : List (String × Status) :=
  all.map fun s => (s.name, s)

def ofName? (text : String) : Option Status :=
  named.lookup text

def next? : Status → Transition → Option Status
  | created, .start => some running
  | created, .startFailed => some failed
  | running, .pause => some paused
  | paused, .resume => some running
  | running, .stop => some stopped
  | paused, .stop => some stopped
  | running, .exit => some exited
  | running, .fail => some failed
  | _, _ => none

def refusal (s : Status) (action : String) : Fault :=
  .invalidTransition s.name action

def apply (s : Status) (t : Transition) : Except Fault Status :=
  match s.next? t with
  | some next => .ok next
  | none => .error (s.refusal t.verb)

def allows (s : Status) (t : Transition) : Bool :=
  (s.next? t).isSome

def isTerminal (s : Status) : Bool :=
  Transition.all.all fun t => !s.allows t

def isActive : Status → Bool
  | running | paused => true
  | _ => false

def isRunning (s : Status) : Bool :=
  s = running

def ensureRemovable (s : Status) : Except Fault Unit :=
  if s.isTerminal then .ok () else .error (s.refusal "remove")

theorem apply_eq_ok_iff {s next : Status} {t : Transition} :
    s.apply t = .ok next ↔ s.next? t = some next := by
  unfold apply
  cases s.next? t <;> simp

theorem isTerminal_iff {s : Status} :
    s.isTerminal = true ↔ s = stopped ∨ s = exited ∨ s = failed := by
  cases s <;> decide

end Status

end BoxRegistry
