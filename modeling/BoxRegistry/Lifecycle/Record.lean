import BoxRegistry.Lifecycle.Status
import BoxRegistry.Lifecycle.Ending
import BoxRegistry.Time.Moment

/-!
This module contains the record of the life of a box. A record changes only by the operations below.
Each of them consults the table of transitions before it touches a field, so a refused operation
leaves the record as it was, and each takes the reading of the clock at which it happens. A clock
that is set back does not move the record back.
-/

namespace BoxRegistry

open Time (Moment)

abbrev Pid := Nat

structure Record where
  status : Status
  pid : Option Pid
  startedAt : Option Moment
  endedAt : Option Moment
  ending : Option Ending
  lastUpdated : Moment
deriving DecidableEq, Repr, Inhabited

namespace Record

def new (createdAt : Moment) : Record :=
  { status := .created, pid := none, startedAt := none, endedAt := none, ending := none,
    lastUpdated := createdAt }

def tick (r : Record) (now : Moment) : Moment :=
  max now r.lastUpdated

def finish (r : Record) (now : Moment) (status : Status) (ending : Ending) : Record :=
  { r with
    status, pid := none, endedAt := some (r.tick now), ending := some ending,
    lastUpdated := r.tick now }

def markRunning (r : Record) (now : Moment) (pid : Pid) : Except Fault Record := do
  let status ← r.status.apply .start
  return { r with status, pid := some pid, startedAt := some (r.tick now), lastUpdated := r.tick now }

def markStartFailed (r : Record) (now : Moment) (message : String) : Except Fault Record := do
  let status ← r.status.apply .startFailed
  return r.finish now status (.startFailed message)

def markPaused (r : Record) (now : Moment) : Except Fault Record := do
  let status ← r.status.apply .pause
  return { r with status, lastUpdated := r.tick now }

def markResumed (r : Record) (now : Moment) : Except Fault Record := do
  let status ← r.status.apply .resume
  return { r with status, lastUpdated := r.tick now }

def markTerminated (r : Record) (now : Moment) (transition : Transition) (ending : Ending) :
    Except Fault Record := do
  let status ← r.status.apply transition
  if status.isTerminal then
    return r.finish now status ending
  else
    throw (.internal (transition.verb ++ " does not end a box lifecycle"))

end Record

end BoxRegistry
