import BoxRegistry.Proofs.Registry.Exclusion
import BoxRegistry.Proofs.Registry.Table

/-!
This module contains the events that need the table of a registry, which are those that create a box, put a
record in place or take a box out. All other events leave what the table shows as it is, so whoever keeps the
table for itself sees one state of it.
-/

namespace BoxRegistry

open Time (Moment)

def Operation.commits (op : Operation) (b : Box) : Bool :=
  match op with
  | remove true => !b.removed && !b.record.status.isActive
  | remove false => !b.removed && b.record.status.isTerminal
  | start | stop _ | pause | resume => false

def Stage.commits : Stage → Reply → Bool
  | launching, _ => true
  | _, .panicked _ => false
  | parting _, .ended _ | confirming _, _ => true
  | pausing _, .failed _ | resuming _, .failed _ => false
  | pausing _, _ | resuming _, _ => true
  | easing .., _ | asking .., _ | parting _, _ | killing _, _ => false

def Box.heeds (b : Box) (task : TaskId) : Bool :=
  b.watch = some task && !b.removed

namespace Operation

theorem box_enter {op : Operation} {b : Box} (h : op.commits b = false) : (op.enter b).box = b := by
  have henters := op.enters b
  generalize op.enter b = m at henters ⊢
  cases henters with
  | @unlist force removes listed inactive terminal =>
    subst removes
    cases force with
    | true => simp [commits, listed, inactive] at h
    | false => simp [commits, listed, terminal rfl] at h
  | _ => rfl

theorem box_proceed {op : Operation} {b : Box} {stage : Stage} {reply : Reply} (h : stage.commits reply = false)
    (limits : Limits) (now : Moment)
    : (op.proceed limits now b stage reply).box = b := by
  cases stage with
  | launching => cases h
  | easing pid grace =>
    cases reply with
    | panicked message => rfl
    | _ => cases grace <;> rfl
  | confirming pid =>
    cases reply with
    | panicked message => rfl
    | _ => cases h
  | _ => cases reply <;> first | rfl | cases h

end Operation

theorem Box.box_noticeEnd {b : Box} {task : TaskId} (h : b.heeds task = false) (now : Moment) (pid : Pid)
    (result : Except Fault ProcessEnd)
    : b.noticeEnd now task pid result = (b, []) := by
  unfold noticeEnd
  apply if_pos
  simp only [heeds, Bool.and_eq_false_iff, decide_eq_false_iff_not, Bool.not_eq_false'] at h
  rcases h with hwatch | hremoved
  . exact .inl hwatch
  . exact .inr (.inl hremoved)

structure Box.Agrees (b b' : Box) : Prop where
  spec : b'.spec = b.spec
  record : b'.record = b.record
  removed : b'.removed = b.removed

namespace Box.Agrees

variable {b b' b'' : Box}

theorem refl (b : Box) : b.Agrees b := ⟨rfl, rfl, rfl⟩

theorem trans (h : b.Agrees b') (h' : b'.Agrees b'') : b.Agrees b'' :=
  ⟨h'.spec.trans h.spec, h'.record.trans h.record, h'.removed.trans h.removed⟩

theorem claim (b : Box) (task : TaskId) : b.Agrees (b.claim task).2 :=
  have huntouched := b.untouched_claim task
  ⟨huntouched.spec, huntouched.record, huntouched.removed⟩

end Box.Agrees

namespace Cell

def commits (c : Cell) : Registry.Event → Bool
  | .turn _ task =>
    match c.duty task with
    | some (.enter op) => (c.box.claim task).1 && op.commits c.box
    | some (.notice ..) => (c.box.claim task).1 && c.box.heeds task
    | some (.work ..) | some (.post _) | some (.watch _) | none => false
  | .reply _ task reply =>
    match c.duty task with
    | some (.work _ stage) => stage.commits reply
    | some (.watch _) =>
      match reply with
      | .panicked _ => false
      | _ => (c.box.claim task).1 && c.box.heeds task
    | some (.enter _) | some (.post _) | some (.notice ..) | none => false
  | .create .. | .begin .. | .describe .. => false

variable {c : Cell} {limits : Limits} {fresh task : TaskId}

theorem agrees_apply {m : Move} (h : m.box = c.box) (limits : Limits) (fresh task : TaskId) (op : Operation)
    : c.box.Agrees (c.apply limits fresh task op m).1.box := by
  have hbox := c.box_apply limits fresh task op m
  rw [h] at hbox
  exact ⟨hbox.1, hbox.2.1, hbox.2.2⟩

theorem agrees_notice (h : c.box.heeds task = false) (fresh : TaskId) (now : Moment) (pid : Pid)
    (result : Except Fault ProcessEnd)
    : c.box.Agrees (c.notice fresh now task pid result).1.box := by
  have hbox := c.box_notice fresh now task pid result
  rw [Box.box_noticeEnd h] at hbox
  exact ⟨hbox.1, hbox.2.1, hbox.2.2⟩

theorem heeds_of_commits {e : Registry.Event} {now : Moment} {pid : Pid} {result : Except Fault ProcessEnd}
    (h : c.Arrives now task e (.notice pid result)) (hclaim : (c.box.claim task).1 = true)
    (hquiet : c.commits e = false)
    : (c.box.claim task).2.heeds task = false := by
  have huntouched := c.box.untouched_claim task
  rw [Box.heeds, huntouched.watch, huntouched.removed, ← Box.heeds]
  cases h with
  | turn duty contends => simpa [commits, duty, hclaim] using hquiet
  | @reply pid reply duty whole =>
    cases reply with
    | panicked message => exact absurd rfl (whole message)
    | _ => simpa [commits, duty, hclaim] using hquiet

theorem agrees_step (slot : Slot) {e : Registry.Event} (h : c.commits e = false)
    : c.box.Agrees (c.step limits fresh slot e).1.box := by
  have hsteps := c.steps limits fresh slot e
  generalize c.step limits fresh slot e = out at hsteps
  cases hsteps with
  | rests rests => exact .refl c.box
  | begins op => exact .refl c.box
  | posts duty => exact .refl c.box
  | @queues e now task d arrives unclaimed => exact .claim c.box task
  | @enters now task op duty claimed =>
    have hclaim := Box.Agrees.claim c.box task
    have hquiet : op.commits (c.box.claim task).2 = false := by
      simp only [commits, duty, claimed, Bool.true_and] at h
      rw [← h]
      unfold Operation.commits
      rw [hclaim.removed, hclaim.record]
    exact hclaim.trans (agrees_apply (c := { c with box := (c.box.claim task).2 }) (Operation.box_enter hquiet) _ _ _ op)
  | @proceeds now task reply op stage duty =>
    simp only [commits, duty] at h
    exact agrees_apply (Operation.box_proceed h limits now) _ _ _ op
  | @reports e now task pid result arrives claimed =>
    have hheeds := heeds_of_commits arrives claimed h
    exact (Box.Agrees.claim c.box task).trans
      (agrees_notice (c := { c.assign task (.notice pid result) with box := _ }) hheeds fresh now pid result)
  | quits duty => exact .refl c.box
  | samples sampled => exact ⟨rfl, rfl, rfl⟩

end Cell

namespace Registry

def commits (r : Registry) (e : Event) : Bool :=
  match e with
  | .create .. => true
  | _ => (e.slot? r).any fun slot => (r.cell? slot).any fun c => c.commits e

def table (r : Registry) : List (Spec × Record × Bool) :=
  r.boxes.map fun b => (b.spec, b.record, b.removed)

variable {limits : Limits} {allowed : Registry → Event → Prop} {r r' : Registry}

theorem Changes.table {slot : Slot} {c c' : Cell} (h : Changes r r' slot c') (hc : r.cell? slot = some c)
    (hagrees : c.box.Agrees c'.box)
    : r'.table = r.table := by
  apply List.ext_getElem?
  intro i
  unfold Registry.table
  rw [List.getElem?_map, List.getElem?_map]
  by_cases hi : i = slot
  . subst hi
    rw [h.box, (cell?_eq_some.mp hc).1, Option.map_some, Option.map_some, hagrees.spec, hagrees.record,
      hagrees.removed]
  . rw [h.box_other hi]

theorem table_step (h : Reachable limits allowed r) {e : Event} (he : r.commits e = false)
    : (r.step e).1.table = r.table := by
  rcases r.slot?_cases e with ⟨slot, c, hslot, hc⟩ | hout
  . apply (changes_step (tidy_of_reachable h) hc hslot).1.table hc
    apply Cell.agrees_step
    cases e with
    | create => cases he
    | _ => simpa only [commits, hslot, hc, Option.any_some] using he
  . rcases step_of_slot?_out hout with heq | ⟨request, now, clock, chance, rfl⟩
    . rw [heq]
    . cases he

end Registry

end BoxRegistry
