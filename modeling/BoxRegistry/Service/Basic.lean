import BoxRegistry.Registry.Task

/-!
This module contains the service around a registry: the gate that a shutdown closes, and the shutdown.
The first caller that shuts the service down leads: it stops the active boxes and closes the backend.
All other callers wait for that. Should the leader give up, the caller that has waited longest takes
over with a grace of its own.
-/

namespace BoxRegistry

open Time (Moment Span)

abbrev CallerId := Nat

inductive Teardown where
  | idle
  | stopping (leader : CallerId) (pending : List TaskId)
  | closing (leader : CallerId)
  | done
deriving DecidableEq, Repr, Inhabited

structure Service where
  registry : Registry
  closed : Bool := false
  teardown : Teardown := .idle
  -- The callers that have called for a shutdown and do not lead it, with their graces.
  waiting : List (CallerId × Span) := []

inductive Turn where
  | wait
  | close
  | done
deriving DecidableEq, Repr

namespace Teardown

def settle (t : Teardown) (effects : List Effect) : Teardown :=
  match t with
  | .stopping leader pending =>
    .stopping leader <| pending.filter fun task =>
      !effects.any fun | .settled settled _ => settled = task | _ => false
  | t => t

end Teardown

namespace Service

def describe (home backend : String) (closed : Bool) : String :=
  "BoxliteRuntime \x7b home_dir: " ++ Text.quoted home ++ ", backend: " ++ Text.quoted backend ++
    ", shutdown: " ++ toString closed ++ " \x7d"

def isClosed : Fault :=
  .stopped "runtime has been shut down"

def gate (s : Service) : Except Fault Unit :=
  if s.closed then .error isClosed else .ok ()

def update (s : Service) (change : Registry × List Effect) : Service × List Effect :=
  ({ s with registry := change.1, teardown := s.teardown.settle change.2 }, change.2)

def run (s : Service) (now : Moment) (task : TaskId) : Service × List Effect :=
  s.update (s.registry.run now task)

def answer (s : Service) (now : Moment) (task : TaskId) (reply : Reply) :
    Service × List Effect :=
  s.update (s.registry.answer now task reply)

def begin (s : Service) (key : String) (op : Operation) :
    Except Fault (TaskId × Service × List Effect) := do
  s.gate
  let slot ← s.registry.lookup key
  let (task, registry, effects) := s.registry.begin slot op
  return (task, { s with registry }, effects)

def create (s : Service) (request : Request) (now : Moment) (clock chance : Nat) :
    Except Fault (Snapshot × Service) := do
  s.gate
  let (snapshot, registry) ← s.registry.create request now clock chance
  return (snapshot, { s with registry })

def exists? (s : Service) (key : String) : Except Fault Bool := do
  s.gate
  return s.registry.exists? key

def get (s : Service) (key : String) : Except Fault (Slot × Record) := do
  s.gate
  let slot ← s.registry.lookup key
  match s.registry.boxes[slot]? with
  | some b => return (slot, b.record)
  | none => throw (.notFound key)

def list (s : Service) : Except Fault (List (Slot × Record)) := do
  s.gate
  return s.registry.listing

def beginAll (r : Registry) (op : Operation) : List Slot → List TaskId × Registry × List Effect
  | [] => ([], r, [])
  | slot :: slots =>
    let (task, r, effects) := r.begin slot op
    let (tasks, r, more) := beginAll r op slots
    (task :: tasks, r, effects ++ more)

def stopAll (r : Registry) (grace : Span) : List TaskId × Registry × List Effect :=
  beginAll r (.stop grace) r.active

def turn (s : Service) (caller : CallerId) : Service × Turn × List Effect :=
  match s.teardown with
  | .done => ({ s with waiting := s.waiting.filter (·.1 ≠ caller) }, .done, [])
  | .closing _ => (s, .wait, [])
  | .stopping leader pending =>
    if leader = caller ∧ pending.isEmpty then ({ s with teardown := .closing leader }, .close, [])
    else (s, .wait, [])
  | .idle =>
    match s.waiting with
    | (first, grace) :: waiting =>
      if first = caller then
        let (tasks, registry, effects) := stopAll s.registry grace
        if tasks.isEmpty then
          ({ s with registry, waiting, teardown := .closing caller }, .close, effects)
        else
          ({ s with registry, waiting, teardown := .stopping caller tasks }, .wait, effects)
      else (s, .wait, [])
    | [] => (s, .wait, [])

def shutdown (s : Service) (caller : CallerId) (grace : Span) : Service × Turn × List Effect :=
  turn { s with closed := true, waiting := s.waiting ++ [(caller, grace)] } caller

def backendClosed (s : Service) : Service :=
  { s with teardown := .done }

/--
A caller gives up a shutdown. The stops it has begun go on.
-/
def abandon (s : Service) (caller : CallerId) : Service :=
  let waiting := s.waiting.filter (·.1 ≠ caller)
  match s.teardown with
  | .stopping leader _ | .closing leader =>
    if leader = caller then { s with waiting, teardown := .idle } else { s with waiting }
  | .idle | .done => { s with waiting }

end Service

end BoxRegistry
