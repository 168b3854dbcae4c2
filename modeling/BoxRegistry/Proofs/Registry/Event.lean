import BoxRegistry.Registry.Task

/-!
This module contains the registry as a machine that takes one event after the other. A list of events
is a schedule: it says which task has its turn when, and what the backend replies when, so what holds
after every list of events holds for all schedules and for all backends.
-/

namespace BoxRegistry
namespace Registry

open Time (Moment)

inductive Event where
  | create (request : Request) (now : Moment) (clock chance : Nat)
  | begin (slot : Slot) (op : Operation)
  | turn (now : Moment) (task : TaskId)
  | reply (now : Moment) (task : TaskId) (reply : Reply)
  | describe (slot : Slot) (record : Record) (reading : Option Usage)

def Event.task? : Event → Option TaskId
  | turn _ task | reply _ task _ => some task
  | create .. | begin .. | describe .. => none

def step (r : Registry) : Event → Registry × List Effect
  | .create request now clock chance =>
    match r.create request now clock chance with
    | .ok (_, r) => (r, [])
    | .error _ => (r, [])
  | .begin slot op => if slot < r.boxes.length then (r.begin slot op).2 else (r, [])
  | .turn now task => r.run now task
  | .reply now task reply => r.answer now task reply
  | .describe slot record reading => ((r.describe slot record reading).2, [])

def after (r : Registry) (events : List Event) : Registry :=
  events.foldl (fun r e => (r.step e).1) r

@[simp]
theorem after_nil (r : Registry) : r.after [] = r := rfl

@[simp]
theorem after_cons (r : Registry) (e : Event) (es : List Event) :
    r.after (e :: es) = (r.step e).1.after es := rfl

theorem after_append (r : Registry) (es es' : List Event) :
    r.after (es ++ es') = (r.after es).after es' := by
  simp [after]

inductive Reachable (limits : Limits) (allowed : Registry → Event → Prop) : Registry → Prop where
  | start : Reachable limits allowed { limits }
  | step {r : Registry} {e : Event} :
    Reachable limits allowed r → allowed r e → Reachable limits allowed (r.step e).1

theorem Reachable.after {limits : Limits} {allowed : Registry → Event → Prop} {r : Registry}
    (hr : Reachable limits allowed r) {es : List Event} (h : ∀ r, ∀ e ∈ es, allowed r e)
    : Reachable limits allowed (r.after es) := by
  induction es generalizing r with
  | nil => exact hr
  | cons e es ih =>
    have he := h r e List.mem_cons_self
    exact ih (hr.step he) fun r e he => h r e (List.mem_cons_of_mem _ he)

theorem Reachable.until_reply {limits : Limits} {allowed : Registry → Event → Prop} {r : Registry} {task : TaskId}
    {P : Registry → Prop} (hr : Reachable limits allowed r)
    (hkeep : ∀ r e, Reachable limits allowed r → P r → (∀ now reply, e ≠ .reply now task reply) → P (r.step e).1)
    (hP : P r) (es : List Event) (hes : ∀ r, ∀ e ∈ es, allowed r e)
    : P (r.after es) ∧ (∀ now reply, .reply now task reply ∉ es) ∨
      ∃ past now reply rest, es = past ++ .reply now task reply :: rest ∧
        (∀ now reply, .reply now task reply ∉ past) ∧ P (r.after past) := by
  induction es generalizing r with
  | nil => exact .inl ⟨hP, by simp⟩
  | cons e es ih =>
    by_cases hreply : ∃ now reply, e = .reply now task reply
    . rcases hreply with ⟨now, reply, rfl⟩
      exact .inr ⟨[], now, reply, es, rfl, by simp, hP⟩
    . have haside : ∀ now reply, e ≠ .reply now task reply := fun now reply heq => hreply ⟨now, reply, heq⟩
      have hcons : ∀ {es : List Event}, (∀ now reply, .reply now task reply ∉ es) →
          ∀ now reply, .reply now task reply ∉ e :: es := by
        intro es hnone now reply hmem
        cases List.mem_cons.mp hmem with
        | inl heq => exact haside now reply heq.symm
        | inr hmem => exact hnone now reply hmem
      have hnow := hes r e List.mem_cons_self
      rcases ih (hr.step hnow) (hkeep r e hr hP haside) (fun r e he => hes r e (List.mem_cons_of_mem _ he)) with
        ⟨hlast, hnone⟩ | ⟨past, now, reply, rest, rfl, hpast, hlast⟩
      . exact .inl ⟨hlast, hcons hnone⟩
      . exact .inr ⟨e :: past, now, reply, rest, rfl, hcons hpast, hlast⟩

end Registry
end BoxRegistry
