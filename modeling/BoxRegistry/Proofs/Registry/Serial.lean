import BoxRegistry.Proofs.Registry.Exclusion

/-!
This module contains the proof that the tasks of a box work on it as if one came after the other. What a
task does from the moment it gets hold of the box until it leaves is its section. A run is compared with
its sections, played one after the other on a box that nobody else knows of.
-/

namespace BoxRegistry

open Time (Moment Span)

/--
A box as it is without the tasks that wait for it and without samples, which no operation looks at.
-/
def Box.bare (b : Box) : Box :=
  { b with sample := none, holder := none, queue := [] }

def Move.bare (m : Move) : Move :=
  { m with box := m.box.bare }

namespace Box

variable (b : Box)

theorem bare_withProcess (t : Transition) {go go' : Pid → Move} (h : ∀ pid, go' pid = (go pid).bare)
    : b.bare.withProcess t go' = (b.withProcess t go).bare := by
  simp only [withProcess, bare, process]
  cases b.record.status.apply t with
  | error f => rfl
  | ok next =>
    cases b.record.pid with
    | none => rfl
    | some pid => exact h pid

theorem bare_part (pid : Pid) (grace : Option Span) : b.bare.part pid grace = (b.part pid grace).bare := by
  cases grace <;> rfl

theorem bare_beginStop (grace : Option Span) : b.bare.beginStop grace = (b.beginStop grace).bare := by
  apply bare_withProcess
  intro pid
  have hstatus : b.bare.record.status = b.record.status := rfl
  rw [hstatus]
  split
  . rfl
  . rw [bare_part]
    rfl

theorem bare_settleStop (op : Operation) (now : Moment) (pid : Pid) (forced : Bool) (code : Option Int)
    : b.bare.settleStop op now pid forced code = (b.settleStop op now pid forced code).bare := by
  simp only [settleStop, bare]
  cases b.record.markTerminated now .stop (.stopped forced code) with
  | error f => rfl
  | ok record => cases op <;> rfl

theorem bare_failStart (now : Moment) (message : String)
    : b.bare.failStart now message = (b.failStart now message).bare := by
  simp only [failStart, bare]
  cases b.record.markStartFailed now message <;> rfl

theorem bare_succeedStart (now : Moment) (pid : Pid)
    : b.bare.succeedStart now pid = (b.succeedStart now pid).bare := by
  simp only [succeedStart, bare]
  cases b.record.markRunning now pid <;> rfl

theorem bare_commit (change : Except Fault Record) : b.bare.commit change = (b.commit change).bare := by
  cases change <;> rfl

theorem bare_noticeEnd (now : Moment) (task : TaskId) (pid : Pid) (result : Except Fault ProcessEnd)
    : b.bare.noticeEnd now task pid result =
      ((b.noticeEnd now task pid result).1.bare, (b.noticeEnd now task pid result).2) := by
  by_cases h : b.watch ≠ some task ∨ b.removed = true ∨ b.record.pid ≠ some pid
  . simp [noticeEnd, bare, h]
  . simp only [noticeEnd, bare, h, if_false]
    cases b.record.markTerminated now (b.record.status.closing result).1 (b.record.status.closing result).2
      <;> rfl

def rewatch (b : Box) (next : TaskId) : List Deed → Box
  | [] => b
  | .watch _ :: deeds => { b with watch := some next : Box }.rewatch (next + 1) deeds
  | .disarm :: deeds => { b with watch := none : Box }.rewatch next deeds
  | .count _ :: deeds | .release _ :: deeds | .unlist :: deeds => b.rewatch next deeds

theorem bare_rewatch (next : TaskId) (deeds : List Deed)
    : b.bare.rewatch next deeds = (b.rewatch next deeds).bare := by
  induction deeds generalizing b next with
  | nil => rfl
  | cons deed deeds ih =>
    cases deed with
    | watch pid => exact ih { b with watch := some next } (next + 1)
    | disarm => exact ih { b with watch := none } next
    | count milestone => exact ih b next
    | release pid => exact ih b next
    | unlist => exact ih b next

theorem exists_rewatch (next : TaskId) (deeds : List Deed)
    : ∃ watch, b.rewatch next deeds = { b with watch } := by
  induction deeds generalizing b next with
  | nil => exact ⟨b.watch, rfl⟩
  | cons deed deeds ih =>
    cases deed with
    | watch pid => exact ih { b with watch := some next } (next + 1)
    | disarm => exact ih { b with watch := none } next
    | count milestone => exact ih b next
    | release pid => exact ih b next
    | unlist => exact ih b next

end Box

theorem Cell.box_performAll (c : Cell) (next : TaskId) (deeds : List Deed)
    : (c.performAll next deeds).1.box = c.box.rewatch next deeds := by
  induction deeds generalizing c next with
  | nil => rfl
  | cons deed deeds ih =>
    simp only [performAll, ih]
    cases deed <;> rfl

namespace Operation

theorem bare_enter (op : Operation) (b : Box) : op.enter b.bare = (op.enter b).bare := by
  unfold enter
  have hremoved : b.bare.removed = b.removed := rfl
  have hstatus : b.bare.record.status = b.record.status := rfl
  rw [hremoved, hstatus]
  split
  . rfl
  . cases op with
    | start =>
      dsimp only
      split <;> rfl
    | stop grace => exact b.bare_beginStop (some grace)
    | pause => exact b.bare_withProcess .pause fun _ => rfl
    | resume => exact b.bare_withProcess .resume fun _ => rfl
    | remove force =>
      cases force with
      | true =>
        dsimp only
        split
        . exact b.bare_beginStop none
        . rfl
      | false =>
        dsimp only
        split <;> rfl

theorem bare_proceed (op : Operation) (limits : Limits) (now : Moment) (b : Box) (stage : Stage)
    (reply : Reply)
    : op.proceed limits now b.bare stage reply = (op.proceed limits now b stage reply).bare := by
  unfold proceed
  split
  . split
    . apply Box.bare_succeedStart
    . apply Box.bare_failStart
  . rfl
  . apply Box.bare_part
  . rfl
  . rfl
  . apply Box.bare_settleStop
  . rfl
  . rfl
  . rfl
  . apply Box.bare_settleStop
  . apply Box.bare_settleStop
  . rfl
  . apply Box.bare_commit
  . rfl
  . apply Box.bare_commit

end Operation

structure Incoming where
  now : Moment
  reply : Reply
  next : TaskId

/--
What a task does from the moment it gets hold of a box until it leaves: it carries out an operation with
the replies that it gets, or it reports the end of a process.
-/
inductive Stint where
  | operate (task : TaskId) (op : Operation) (next : TaskId) (answers : List Incoming)
  | report (task : TaskId) (pid : Pid) (result : Except Fault ProcessEnd) (now : Moment) (next : TaskId)

def Move.outcome (next : TaskId) (m : Move) : Box × Next :=
  (m.box.rewatch next m.deeds, m.next)

def Operation.advance (op : Operation) (limits : Limits) : Box × Next → Incoming → Box × Next
  | (b, .wait stage), a => (op.proceed limits a.now b stage a.reply).outcome a.next
  | (b, next), _ => (b, next)

namespace Stint

def play (limits : Limits) (b : Box) : Stint → Box × Next
  | operate _ op next answers => answers.foldl (op.advance limits) ((op.enter b).outcome next)
  | report task pid result now next =>
    let (b, deeds) := b.noticeEnd now task pid result
    (b.rewatch next deeds, .finish (.ok ()))

def results : Stint → Next → List (TaskId × Except Fault Unit)
  | operate task .., .finish result => [(task, result)]
  | operate task .., .crash message => [(task, .error (.brokenOff task message))]
  | operate .., .wait _ | report .., _ => []

def follow (limits : Limits) (out : Box × List (TaskId × Except Fault Unit)) (s : Stint) :
    Box × List (TaskId × Except Fault Unit) :=
  ((s.play limits out.1).1, out.2 ++ s.results (s.play limits out.1).2)

def playAll (limits : Limits) (b : Box) (stints : List Stint) : Box × List (TaskId × Except Fault Unit) :=
  stints.foldl (follow limits) (b, [])

theorem playAll_concat (limits : Limits) (b : Box) (stints : List Stint) (s : Stint)
    : playAll limits b (stints ++ [s]) = follow limits (playAll limits b stints) s := by
  simp [playAll]

def answered (task : TaskId) (a : Incoming) : Stint → Stint
  | operate t op next answers => operate t op next (if t = task then answers ++ [a] else answers)
  | report t pid result now next => report t pid result now next

def answerLast (task : TaskId) (a : Incoming) : List Stint → List Stint
  | [] => []
  | [s] => [s.answered task a]
  | s :: s' :: stints => s :: answerLast task a (s' :: stints)

theorem answerLast_concat (task : TaskId) (a : Incoming) (stints : List Stint) (s : Stint)
    : answerLast task a (stints ++ [s]) = stints ++ [s.answered task a] := by
  induction stints with
  | nil => rfl
  | cons s' stints ih =>
    cases stints with
    | nil => rfl
    | cons s'' stints => simpa [answerLast] using ih

end Stint

def Cell.note (c : Cell) (next : TaskId) (stints : List Stint) : Registry.Event → List Stint
  | .turn now task =>
    match c.duty task with
    | some (.enter op) =>
      if (c.box.claim task).1 then stints ++ [.operate task op next []] else stints
    | some (.notice pid result) =>
      if (c.box.claim task).1 then stints ++ [.report task pid result now next] else stints
    | some (.work ..) | some (.post _) | some (.watch _) | none => stints
  | .reply now task reply =>
    match c.duty task with
    | some (.work ..) => Stint.answerLast task ⟨now, reply, next⟩ stints
    | some (.watch pid) =>
      match reply with
      | .panicked _ => stints
      | _ => if (c.box.claim task).1 then stints ++ [.report task pid reply.ending now next] else stints
    | some (.enter _) | some (.notice ..) | some (.post _) | none => stints
  | .create .. | .begin .. | .describe .. => stints

def Effect.result? : Effect → Option (TaskId × Except Fault Unit)
  | settled task result => some (task, result)
  | call .. | release _ | wake _ => none

/--
The box and the results of a run are those of its stints, of which the last is still going on if a task
carries out an operation.
-/
structure Cell.Serial (c : Cell) (limits : Limits) (stints : List Stint)
    (results : List (TaskId × Except Fault Unit)) : Prop where
  played : Stint.playAll limits (.new c.box.spec) stints = (c.box.bare, results)
  opened : ∀ t op stage, c.duty t = some (.work op stage) → ∃ past next answers,
    stints = past ++ [.operate t op next answers] ∧
      ((Stint.operate t op next answers).play limits
        (Stint.playAll limits (.new c.box.spec) past).1).2 = .wait stage

namespace Cell

open Stint

variable {c : Cell} {limits : Limits} {slot : Slot} {now : Moment} {task fresh : TaskId} {e : Registry.Event}
  {stints : List Stint} {results : List (TaskId × Except Fault Unit)}

theorem results_performAll (c : Cell) (fresh : TaskId) (deeds : List Deed)
    : (c.performAll fresh deeds).2.filterMap Effect.result? = [] := by
  induction deeds generalizing c fresh with
  | nil => rfl
  | cons deed deeds ih =>
    simp only [performAll, List.filterMap_append, ih, List.append_nil]
    cases deed <;> rfl

theorem results_leave (c : Cell) (task : TaskId) : (c.leave task).2.filterMap Effect.result? = [] := by
  simp only [leave]
  cases c.box.handOver.holder <;> rfl

theorem bare_leave (c : Cell) (task : TaskId) : (c.leave task).1.box.bare = c.box.bare := rfl

theorem bare_apply (c : Cell) (limits : Limits) (fresh task : TaskId) (op : Operation) (m : Move)
    : (c.apply limits fresh task op m).1.box.bare = m.box.bare.rewatch fresh m.deeds := by
  rw [Box.bare_rewatch, ← box_performAll { c with box := m.box }]
  unfold apply
  dsimp only
  cases m.next <;> rfl

theorem results_apply (c : Cell) (limits : Limits) (fresh task : TaskId) (op : Operation) (m : Move)
    (next : TaskId) (answers : List Incoming)
    : (c.apply limits fresh task op m).2.filterMap Effect.result? =
      (Stint.operate task op next answers).results m.next := by
  unfold apply
  dsimp only
  cases m.next <;> simp [results_performAll, results_leave, Effect.result?, Stint.results]

theorem bare_notice (c : Cell) (limits : Limits) (fresh : TaskId) (now : Moment) (task : TaskId) (pid : Pid)
    (result : Except Fault ProcessEnd)
    : (c.notice fresh now task pid result).1.box.bare =
      ((Stint.report task pid result now fresh).play limits c.box.bare).1 := by
  simp only [play, Box.bare_noticeEnd, Box.bare_rewatch, notice, bare_leave, box_performAll]

theorem results_notice (c : Cell) (fresh : TaskId) (now : Moment) (task : TaskId) (pid : Pid)
    (result : Except Fault ProcessEnd)
    : (c.notice fresh now task pid result).2.filterMap Effect.result? = [] := by
  simp [notice, results_performAll, results_leave]

theorem bare_claim (b : Box) (task : TaskId) : (b.claim task).2.bare = b.bare := by
  have hcases := b.claims task
  generalize b.claim task = out at hcases ⊢
  cases hcases <;> rfl

theorem spec_of_bare {b b' : Box} (h : b'.bare = b.bare) : b'.spec = b.spec := by
  have : b'.bare.spec = b.bare.spec := by rw [h]
  exact this

theorem kept_of_rewatch {b b' : Box} {next : TaskId} {deeds : List Deed} (h : b'.bare = b.bare.rewatch next deeds)
    : b'.spec = b.spec ∧ b'.record = b.record ∧ b'.removed = b.removed := by
  rcases b.bare.exists_rewatch next deeds with ⟨watch, heq⟩
  rw [heq] at h
  have hspec := congrArg Box.spec h
  have hrecord := congrArg Box.record h
  have hremoved := congrArg Box.removed h
  exact ⟨hspec, hrecord, hremoved⟩

theorem box_apply (c : Cell) (limits : Limits) (fresh task : TaskId) (op : Operation) (m : Move)
    : (c.apply limits fresh task op m).1.box.spec = m.box.spec ∧
      (c.apply limits fresh task op m).1.box.record = m.box.record ∧
      (c.apply limits fresh task op m).1.box.removed = m.box.removed :=
  kept_of_rewatch (bare_apply c limits fresh task op m)

theorem box_notice (c : Cell) (fresh : TaskId) (now : Moment) (task : TaskId) (pid : Pid)
    (result : Except Fault ProcessEnd)
    : (c.notice fresh now task pid result).1.box.spec = c.box.spec ∧
      (c.notice fresh now task pid result).1.box.record = (c.box.noticeEnd now task pid result).1.record ∧
      (c.notice fresh now task pid result).1.box.removed = (c.box.noticeEnd now task pid result).1.removed := by
  have hbare := bare_notice c {} fresh now task pid result
  simp only [play, Box.bare_noticeEnd] at hbare
  rw [← (c.box.alike_noticeEnd now task pid result).spec]
  exact kept_of_rewatch hbare

theorem Serial.aside (h : c.Serial limits stints results) {c' : Cell} (hbare : c'.box.bare = c.box.bare)
    (hduty : ∀ t op stage, c'.duty t = some (.work op stage) → c.duty t = some (.work op stage))
    : c'.Serial limits stints results where
  played := by rw [spec_of_bare hbare, hbare, h.played]
  opened t op stage ht := by
    rw [spec_of_bare hbare]
    exact h.opened t op stage (hduty t op stage ht)

theorem Serial.assign (h : c.Serial limits stints results) (task : TaskId) {d : Duty}
    (hd : ∀ op stage, d ≠ .work op stage)
    : (c.assign task d).Serial limits stints results := by
  refine h.aside rfl ?_
  exact fun t op stage ht => work_of_assign hd ht

theorem Serial.dropTask (h : c.Serial limits stints results) (task : TaskId)
    : (c.dropTask task).Serial limits stints results := by
  refine h.aside rfl ?_
  intro t op stage ht
  simp only [Cell.dropTask] at ht
  split at ht
  . cases ht
  . exact ht

theorem Serial.enter (h : c.Serial limits stints results) {c₁ : Cell} (hbare : c₁.box.bare = c.box.bare)
    (horderly : c₁.Orderly) (hholder : c₁.box.holder = some task) (hfresh : c₁.duty fresh = none)
    (op : Operation)
    : (c₁.apply limits fresh task op (op.enter c₁.box)).1.Serial limits
      (stints ++ [.operate task op fresh []])
      (results ++ (c₁.apply limits fresh task op (op.enter c₁.box)).2.filterMap Effect.result?) := by
  have hmoves := op.moves_enter c₁.box
  have hplay : (Stint.operate task op fresh []).play limits c.box.bare =
      ((c₁.apply limits fresh task op (op.enter c₁.box)).1.box.bare, (op.enter c₁.box).next) := by
    rw [bare_apply, ← hbare]
    simp only [play, List.foldl_nil, op.bare_enter, Move.outcome, Move.bare]
  have hspec : (c₁.apply limits fresh task op (op.enter c₁.box)).1.box.spec = c.box.spec := by
    rw [(box_apply ..).1, (op.alike_enter c₁.box).spec, spec_of_bare hbare]
  constructor
  . rw [hspec, playAll_concat, h.played]
    simp only [follow, hplay, results_apply c₁ limits fresh task op _ fresh []]
  . intro t op' stage ht
    rcases horderly.work_apply hholder hfresh hmoves limits ht with ⟨rfl, rfl, hnext⟩
    refine ⟨stints, fresh, [], rfl, ?_⟩
    rw [hspec, h.played, hplay]
    exact hnext

theorem Serial.proceed (h : c.Serial limits stints results) (hsound : c.Sound) {op : Operation} {stage : Stage}
    (hduty : c.duty task = some (.work op stage)) (hfresh : c.duty fresh = none) (now : Moment) (reply : Reply)
    : (c.apply limits fresh task op (op.proceed limits now c.box stage reply)).1.Serial limits
      (answerLast task ⟨now, reply, fresh⟩ stints)
      (results ++ (c.apply limits fresh task op
        (op.proceed limits now c.box stage reply)).2.filterMap Effect.result?) := by
  have hmoves := op.moves_proceed (hsound.fits task op stage hduty) limits now reply
  have hholder := hsound.worker task op stage hduty
  rcases h.opened task op stage hduty with ⟨past, next, answers, rfl, hopen⟩
  have hplayed := h.played
  rw [playAll_concat] at hplayed
  simp only [follow, Prod.mk.injEq, hopen, Stint.results, List.append_nil] at hplayed
  rcases hplayed with ⟨hbox, hresults⟩
  have hplay : (Stint.operate task op next (answers ++ [⟨now, reply, fresh⟩])).play limits
        (playAll limits (.new c.box.spec) past).1 =
      ((c.apply limits fresh task op (op.proceed limits now c.box stage reply)).1.box.bare,
        (op.proceed limits now c.box stage reply).next) := by
    simp only [play] at hbox hopen ⊢
    rw [List.foldl_append, List.foldl_cons, List.foldl_nil, bare_apply]
    -- Up to now the stint has come to the box as it is, so the reply is its next answer.
    generalize answers.foldl (op.advance limits) _ = out at hbox hopen ⊢
    rcases out with ⟨b, n⟩
    obtain rfl : b = c.box.bare := hbox
    obtain rfl : n = .wait stage := hopen
    simp only [Operation.advance, op.bare_proceed, Move.outcome, Move.bare]
  have hspec : (c.apply limits fresh task op (op.proceed limits now c.box stage reply)).1.box.spec =
      c.box.spec := by
    rw [(box_apply ..).1, (op.alike_proceed limits now c.box stage reply).spec]
  rw [answerLast_concat]
  simp only [answered, if_true]
  constructor
  . rw [hspec, playAll_concat]
    simp only [follow, hplay, hresults,
      results_apply c limits fresh task op _ next (answers ++ [⟨now, reply, fresh⟩])]
  . intro t op' stage' ht
    rcases hsound.toOrderly.work_apply hholder hfresh hmoves limits ht with ⟨rfl, rfl, hnext⟩
    refine ⟨past, next, answers ++ [⟨now, reply, fresh⟩], rfl, ?_⟩
    rw [hspec, hplay]
    exact hnext

theorem Serial.report (h : c.Serial limits stints results) {c₁ : Cell} (hbare : c₁.box.bare = c.box.bare)
    (horderly : c₁.Orderly) (hholder : c₁.box.holder = some task) (fresh : TaskId) (now : Moment) (pid : Pid)
    (result : Except Fault ProcessEnd)
    : (c₁.notice fresh now task pid result).1.Serial limits
      (stints ++ [.report task pid result now fresh])
      (results ++ (c₁.notice fresh now task pid result).2.filterMap Effect.result?) := by
  have hspec : (c₁.notice fresh now task pid result).1.box.spec = c.box.spec := by
    rw [(box_notice ..).1, spec_of_bare hbare]
  constructor
  . rw [hspec, playAll_concat, h.played, results_notice, bare_notice c₁ limits, hbare]
    simp [follow, Stint.results]
  . intro t op stage ht
    exact absurd ht (horderly.not_work_notice hholder fresh now pid result t op stage)

section Steps

theorem note_of_rests (h : c.Rests slot e) (next : TaskId) (stints : List Stint) : c.note next stints e = stints := by
  cases h with
  | @turn now task waits =>
    simp only [note]
    cases hduty : c.duty task with
    | none => rfl
    | some d => cases d <;> first | rfl | cases waits _ hduty
  | @reply now task reply idle =>
    simp only [note]
    cases hduty : c.duty task with
    | none => rfl
    | some d => cases d <;> first | rfl | cases idle _ hduty
  | _ => rfl

theorem note_of_unclaimed {d : Duty} (h : c.Arrives now task e d) (hclaim : (c.box.claim task).1 = false)
    (next : TaskId) (stints : List Stint)
    : c.note next stints e = stints := by
  cases h with
  | turn duty contends => cases d <;> simp [note, duty, hclaim]
  | @reply pid reply duty whole =>
    cases reply with
    | panicked message => exact absurd rfl (whole message)
    | _ => simp [note, duty, hclaim]

theorem note_of_reports {pid : Pid} {result : Except Fault ProcessEnd} (h : c.Arrives now task e (.notice pid result))
    (hclaim : (c.box.claim task).1 = true) (next : TaskId) (stints : List Stint)
    : c.note next stints e = stints ++ [.report task pid result now next] := by
  cases h with
  | turn duty contends => simp [note, duty, hclaim]
  | @reply pid reply duty whole =>
    cases reply with
    | panicked message => exact absurd rfl (whole message)
    | _ => simp [note, duty, hclaim]

theorem Serial.step (h : c.Serial limits stints results) (hsound : c.Sound) (hbelow : c.Below fresh)
    (slot : Slot) (e : Registry.Event)
    : (c.step limits fresh slot e).1.Serial limits (c.note fresh stints e)
      (results ++ (c.step limits fresh slot e).2.filterMap Effect.result?) := by
  have hnone : c.Serial limits stints (results ++ ([] : List Effect).filterMap Effect.result?) := by
    simpa using h
  have hsteps := c.steps limits fresh slot e
  generalize c.step limits fresh slot e = out at hsteps
  cases hsteps with
  | rests rests =>
    rw [note_of_rests rests]
    exact hnone
  | begins op => exact hnone.assign fresh (by simp)
  | @posts now task pid duty =>
    simp only [note, duty]
    exact hnone.assign task (by simp)
  | @queues e now task d arrives unclaimed =>
    rw [note_of_unclaimed arrives unclaimed]
    exact (hnone.assign task arrives.ne_work).aside (bare_claim c.box task) fun t op stage ht => ht
  | @enters now task op duty claimed =>
    have hheld := hsound.claim_enter duty claimed
    simp only [note, duty, claimed, if_true]
    exact h.enter (bare_claim c.box task) hheld.1 hheld.2 hbelow.fresh op
  | @proceeds now task reply op stage duty =>
    simp only [note, duty]
    exact h.proceed hsound duty hbelow.fresh now reply
  | @reports e now task pid result arrives claimed =>
    have hheld := hsound.claim_arrives arrives claimed
    rw [note_of_reports arrives claimed]
    exact h.report (bare_claim c.box task) hheld.1 hheld.2 fresh now pid result
  | @quits now task pid message duty =>
    simp only [note, duty]
    exact hnone.dropTask task
  | samples sampled => exact hnone.aside rfl fun t op stage ht => ht

theorem serial_new (limits : Limits) (spec : Spec) : Serial ⟨.new spec, fun _ => none⟩ limits [] [] where
  played := rfl
  opened := by simp

end Steps

end Cell

namespace Registry

def effectsAt (r : Registry) (slot : Slot) (e : Event) : List Effect :=
  if e.slot? r = some slot then (r.step e).2 else []

def note (r : Registry) (slot : Slot) (past : List Stint) (e : Event) : List Stint :=
  match r.cell? slot with
  | some c => c.note r.nextTask past e
  | none => past

def stints (r : Registry) (slot : Slot) (past : List Stint) : List Event → List Stint
  | [] => past
  | e :: es => (r.step e).1.stints slot (r.note slot past e) es

def results (r : Registry) (slot : Slot) : List Event → List (TaskId × Except Fault Unit)
  | [] => []
  | e :: es => (r.effectsAt slot e).filterMap Effect.result? ++ (r.step e).1.results slot es

theorem effectsAt_eq {r : Registry} (h : r.Tidy) {slot : Slot} {c : Cell} (hc : r.cell? slot = some c)
    (e : Event)
    : r.effectsAt slot e = (c.step r.limits r.nextTask slot e).2 := by
  unfold effectsAt
  split
  . next he => exact (changes_step h hc he).2
  . next he => rw [step_of_slot?_ne hc he]

theorem effectsAt_of_none {r : Registry} {slot : Slot} (hc : r.cell? slot = none) (e : Event)
    : r.effectsAt slot e = [] := by
  unfold effectsAt
  split
  . next he =>
    have hout : ∀ s, e.slot? r = some s → r.boxes[s]? = none := by
      intro s hs
      rw [he] at hs
      rw [← Option.some.inj hs]
      exact cell?_eq_none.mp hc
    rcases step_of_slot?_out hout with heq | ⟨request, now, clock, chance, rfl⟩
    . rw [heq]
    . cases he
  . rfl

def SerialAt (r : Registry) (slot : Slot) (past : List Stint) (done : List (TaskId × Except Fault Unit)) : Prop :=
  Tracked (fun limits c (noted : List Stint × List (TaskId × Except Fault Unit)) =>
    c.Serial limits noted.1 noted.2) ([], []) r slot (past, done)

theorem serialAt_start (limits : Limits) (slot : Slot) : SerialAt { limits } slot [] [] :=
  tracked_start _ _ limits slot

theorem SerialAt.step {r : Registry} {slot : Slot} {past : List Stint}
    {done : List (TaskId × Except Fault Unit)} (h : r.SerialAt slot past done) (e : Event)
    : (r.step e).1.SerialAt slot (r.note slot past e)
      (done ++ (r.effectsAt slot e).filterMap Effect.result?) := by
  apply Tracked.step h e fun spec => Cell.serial_new r.limits spec
  . intro hc
    simp [note, hc, effectsAt_of_none hc]
  . intro c hc hsound hbelow hserial
    simp only [note, hc, effectsAt_eq h.tidy hc]
    exact hserial.step hsound hbelow slot e

theorem SerialAt.run {r : Registry} {slot : Slot} {past : List Stint}
    {done : List (TaskId × Except Fault Unit)} (h : r.SerialAt slot past done) (es : List Event)
    : (r.after es).SerialAt slot (r.stints slot past es) (done ++ r.results slot es) := by
  -- What was noted before the events is general, since it grows with each of them.
  induction es generalizing r past done with
  | nil => simpa [stints, results] using h
  | cons e es ih =>
    simp only [after_cons, stints, results]
    rw [← List.append_assoc]
    exact ih (h.step e)

end Registry

end BoxRegistry
