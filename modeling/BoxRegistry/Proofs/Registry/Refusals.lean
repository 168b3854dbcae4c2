import BoxRegistry.Proofs.Registry.ExitWatch
import BoxRegistry.Proofs.Registry.Process
import BoxRegistry.Proofs.Registry.Table

namespace BoxRegistry

open Time (Moment)

inductive Request.Improper (request : Request) : Prop where
  | image (blank : Text.isBlank request.image = true) : Improper request
  | name {name : String} (named : request.name = some name)
    (wrong : Text.isBlank name = true ∨ BoxId.isValid name = true) : Improper request
  | cpus (none : request.cpus = some 0) : Improper request
  | memory (none : request.memoryMib = some 0) : Improper request

namespace Request

variable {request : Request}

theorem resolve_eq_error {f : Fault} (h : request.resolve = .error f) : ∃ reason, f = .invalidSpec reason := by
  have hresolves := request.resolves
  rw [h] at hresolves
  cases hresolves with
  | refused reason => exact ⟨reason, rfl⟩

theorem proper_of_resolve {granted : Resources} (h : request.resolve = .ok granted) : ¬request.Improper := by
  have hresolves := request.resolves
  rw [h] at hresolves
  cases hresolves with
  | granted image right cpus memory =>
    intro himproper
    cases himproper with
    | image blank =>
      rw [image] at blank
      cases blank
    | name named wrong =>
      rw [named] at right
      have hright := checkName_eq_ok right
      rw [hright.1, hright.2] at wrong
      simp at wrong
    | cpus none =>
      rw [none] at cpus
      exact cpus rfl
    | memory none =>
      rw [none] at memory
      exact memory rfl

end Request

namespace Operation

def verb : Operation → String
  | start => "start"
  | stop _ => "stop"
  | pause => "pause"
  | resume => "resume"
  | remove _ => "remove"

def allowedIn : Operation → Status → Bool
  | start, .created => true
  | stop _, .running | stop _, .paused => true
  | pause, .running => true
  | resume, .paused => true
  | remove false, .stopped | remove false, .exited | remove false, .failed => true
  | remove true, _ => true
  | _, _ => false

end Operation

def Box.refusal? (b : Box) (op : Operation) : Option Fault :=
  if b.removed then some (.notFound b.spec.id.text)
  else if op.allowedIn b.record.status then none
  else some (.invalidTransition b.record.status.name op.verb)

def Box.contents (b : Box) : Box :=
  { b with holder := none, queue := [] }

theorem Box.withProcess_of_error {b : Box} {t : Transition} {f : Fault} (h : b.record.status.apply t = .error f)
    (go : Pid → Move)
    : b.withProcess t go = b.refuse f := by
  rw [withProcess, h]

namespace Operation

def transition? : Operation → Option Transition
  | start => some .start
  | stop _ => some .stop
  | pause => some .pause
  | resume => some .resume
  | remove _ => none

theorem apply_of_forbidden {op : Operation} {t : Transition} {s : Status} (hop : op.transition? = some t)
    (h : op.allowedIn s = false)
    : s.apply t = .error (.invalidTransition s.name op.verb) := by
  cases op with
  | remove force => cases hop
  | _ =>
    cases hop
    cases s <;> first | rfl | cases h

theorem ensureRemovable_of_forbidden {s : Status} (h : (remove false).allowedIn s = false)
    : s.ensureRemovable = .error (.invalidTransition s.name (remove false).verb) := by
  cases s <;> first | rfl | cases h

theorem enter_of_refusal {op : Operation} {b : Box} {f : Fault} (h : b.refusal? op = some f)
    : op.enter b = b.refuse f := by
  unfold Box.refusal? at h
  unfold enter
  split at h
  . next hremoved =>
    cases h
    rw [if_pos hremoved]
  . next hlisted =>
    rw [if_neg hlisted]
    split at h
    . cases h
    . next hallowed =>
      cases h
      have hforbidden : op.allowedIn b.record.status = false := by simpa using hallowed
      cases op with
      | start =>
        dsimp only
        rw [apply_of_forbidden rfl hforbidden]
      | stop grace => exact Box.withProcess_of_error (apply_of_forbidden rfl hforbidden) _
      | pause => exact Box.withProcess_of_error (apply_of_forbidden rfl hforbidden) _
      | resume => exact Box.withProcess_of_error (apply_of_forbidden rfl hforbidden) _
      | remove force =>
        cases force with
        | true => cases hs : b.record.status <;> rw [hs] at hforbidden <;> cases hforbidden
        | false =>
          dsimp only
          rw [ensureRemovable_of_forbidden hforbidden]

end Operation

namespace Registry

variable {limits : Limits} {allowed : Registry → Event → Prop} {r : Registry} {slot : Slot} {task : TaskId}
  {op : Operation} {b : Box} {f : Fault}

/--
An event at which a task only waits for a box or turns away from it. Nothing is asked of the backend, and of all that
the registry keeps nothing is changed but the line of the box and the task itself.
-/
structure Idle (r : Registry) (task : TaskId) (e : Event) : Prop where
  silent : ∀ effect ∈ (r.step e).2, (∃ t, effect = .wake t) ∨ ∃ result, effect = .settled task result
  limits : (r.step e).1.limits = r.limits
  ids : (r.step e).1.ids = r.ids
  names : (r.step e).1.names = r.names
  counters : (r.step e).1.counters = r.counters
  boxes : (r.step e).1.boxes.map Box.contents = r.boxes.map Box.contents
  tasks : ∀ t ≠ task, (r.step e).1.task? t = r.task? t
  watchers : ∀ slot t pid, (r.step e).1.Watcher slot t pid ↔ r.Watcher slot t pid

theorem contents_modifyBox (hb : r.boxes[slot]? = some b) {b' : Box} (h : b'.contents = b.contents)
    : (r.modifyBox slot fun _ => b').boxes.map Box.contents = r.boxes.map Box.contents := by
  apply List.ext_getElem?
  intro i
  rw [List.getElem?_map, List.getElem?_map, boxes_modifyBox]
  split
  . next heq =>
    subst heq
    simp [hb, h]
  . rfl

theorem watch_of_contents {r r' : Registry} (h : r'.boxes.map Box.contents = r.boxes.map Box.contents) (slot : Slot)
    : r'.boxes[slot]?.bind Box.watch = r.boxes[slot]?.bind Box.watch := by
  have hcontents : ∀ r : Registry,
      r.boxes[slot]?.bind Box.watch = (r.boxes.map Box.contents)[slot]?.bind Box.watch := by
    intro r
    rw [List.getElem?_map]
    cases r.boxes[slot]? <;> rfl
  rw [hcontents r', hcontents r, h]

theorem watchers_of_tasks {r r' : Registry} (hboxes : r'.boxes.map Box.contents = r.boxes.map Box.contents)
    (htasks : ∀ t ≠ task, r'.task? t = r.task? t)
    (hbefore : ∀ x, r.task? task = some x → x.duty.watched? = none)
    (hafter : ∀ x, r'.task? task = some x → x.duty.watched? = none) (slot : Slot) (t : TaskId) (pid : Pid)
    : r'.Watcher slot t pid ↔ r.Watcher slot t pid := by
  by_cases ht : t = task
  . subst ht
    constructor
    . rintro ⟨d, htask, hd, -⟩
      exact absurd (hd.symm.trans (hafter _ htask)) nofun
    . rintro ⟨d, htask, hd, -⟩
      exact absurd (hd.symm.trans (hbefore _ htask)) nofun
  . simp only [Watcher, htasks t ht, watch_of_contents hboxes]

theorem idle_of_eq {e : Event} (h : r.step e = (r, [])) (task : TaskId) : r.Idle task e where
  silent := by simp [h]
  limits := by rw [h]
  ids := by rw [h]
  names := by rw [h]
  counters := by rw [h]
  boxes := by rw [h]
  tasks := by simp [h]
  watchers := by simp [h]

theorem idle_begin (h : r.Tidy) (hslot : slot < r.boxes.length) (op : Operation)
    : r.Idle r.nextTask (.begin slot op) := by
  have hstep : r.step (.begin slot op) = (r.begin slot op).2 := by simp [step, hslot]
  have htask : ∀ t, (r.step (.begin slot op)).1.task? t =
      if t = r.nextTask then some ⟨slot, .enter op⟩ else r.task? t := by
    intro t
    rw [hstep]
    exact task?_assign r r.nextTask t slot (.enter op)
  have hothers : ∀ t ≠ r.nextTask, (r.step (.begin slot op)).1.task? t = r.task? t := by
    intro t hne
    rw [htask, if_neg hne]
  have hboxes : (r.step (.begin slot op)).1.boxes.map Box.contents = r.boxes.map Box.contents := by
    rw [hstep]
    rfl
  constructor
  case silent => simp [hstep, begin]
  case limits => rw [hstep]; rfl
  case ids => rw [hstep]; rfl
  case names => rw [hstep]; rfl
  case counters => rw [hstep]; rfl
  case boxes => exact hboxes
  case tasks => exact hothers
  case watchers =>
    apply watchers_of_tasks hboxes hothers
    . intro x hx
      exact absurd (h.fresh _ x hx) (Nat.lt_irrefl _)
    . intro x hx
      rw [htask, if_pos rfl] at hx
      cases hx
      rfl

section Turn

variable (htask : r.task? task = some ⟨slot, .enter op⟩) (hb : r.boxes[slot]? = some b) (now : Moment)
include htask hb

theorem idle_wait (hclaim : (b.claim task).1 = false) : r.Idle task (.turn now task) := by
  have hstep : r.step (.turn now task) = (r.modifyBox slot fun _ => (b.claim task).2, []) := by
    simp only [step, run, htask, hb, withBox, hclaim, Bool.false_eq_true, if_false]
  have hcontents : (b.claim task).2.contents = b.contents := by
    have hcases := b.claims task
    generalize b.claim task = out at hcases ⊢
    cases hcases <;> rfl
  have hboxes := contents_modifyBox hb hcontents
  constructor
  case silent => simp [hstep]
  case limits => rw [hstep]; rfl
  case ids => rw [hstep]; rfl
  case names => rw [hstep]; rfl
  case counters => rw [hstep]; rfl
  case boxes => rw [hstep]; exact hboxes
  case tasks => intro t _; rw [hstep]; rfl
  case watchers =>
    intro i t pid
    rw [hstep]
    simp only [Watcher, task?_modifyBox, watch_of_contents hboxes]

theorem step_refused (hclaim : (b.claim task).1 = true) (hrefusal : b.refusal? op = some f)
    : ∃ woken, (∀ effect ∈ woken, ∃ t, effect = .wake t) ∧
        r.step (.turn now task) =
          ((r.modifyBox slot fun _ => (b.claim task).2.handOver).dropTask task,
            woken ++ [.settled task (.error f)]) := by
  have huntouched := b.untouched_claim task
  have hrefused : (b.claim task).2.refusal? op = some f := by
    rw [← hrefusal, Box.refusal?, Box.refusal?, huntouched.record, huntouched.removed, huntouched.spec]
  have hmodify : ((r.modifyBox slot fun _ => (b.claim task).2).modifyBox slot fun _ => (b.claim task).2).modifyBox slot
      Box.handOver = r.modifyBox slot fun _ => (b.claim task).2.handOver := by
    simp only [modifyBox, List.modify_modify_eq]
    rfl
  have hstep : r.step (.turn now task) =
      (r.modifyBox slot fun _ => (b.claim task).2).apply slot task op ((b.claim task).2.refuse f) := by
    simp only [step, run, htask, hb, withBox, hclaim, if_true, Operation.enter_of_refusal hrefused]
  rw [hstep]
  simp only [apply, Box.refuse, performAll, leave, hmodify]
  split
  . exact ⟨_, by simp, rfl⟩
  . exact ⟨[], by simp, rfl⟩

theorem idle_refused (hclaim : (b.claim task).1 = true) (hrefusal : b.refusal? op = some f)
    : r.Idle task (.turn now task) := by
  rcases step_refused htask hb now hclaim hrefusal with ⟨woken, hwoken, hstep⟩
  have hcontents : (b.claim task).2.handOver.contents = b.contents := by
    have hcases := b.claims task
    generalize b.claim task = out at hcases ⊢
    cases hcases <;> rfl
  have hboxes : (r.step (.turn now task)).1.boxes.map Box.contents = r.boxes.map Box.contents := by
    rw [hstep]
    exact contents_modifyBox hb hcontents
  have hothers : ∀ t ≠ task, (r.step (.turn now task)).1.task? t = r.task? t := by
    intro t hne
    rw [hstep]
    simp [hne]
  constructor
  case silent =>
    rw [hstep]
    intro effect heffect
    rcases List.mem_append.mp heffect with heffect | heffect
    . exact .inl (hwoken effect heffect)
    . exact .inr ⟨_, List.mem_singleton.mp heffect⟩
  case limits => rw [hstep]; rfl
  case ids => rw [hstep]; rfl
  case names => rw [hstep]; rfl
  case counters => rw [hstep]; rfl
  case boxes => exact hboxes
  case tasks => exact hothers
  case watchers =>
    apply watchers_of_tasks hboxes hothers
    . intro x hx
      rw [htask] at hx
      cases hx
      rfl
    . intro x hx
      rw [hstep] at hx
      simp at hx

end Turn

theorem enters_before (h : Reachable limits allowed r) {e : Event} (hlt : task < r.nextTask)
    (htask : (r.step e).1.task? task = some ⟨slot, .enter op⟩)
    : r.task? task = some ⟨slot, .enter op⟩ := by
  have htidy := tidy_of_reachable h
  by_cases he : e.task? = some task
  . have hevolves := evolves htidy e
    rcases exists_cell? (List.getElem?_eq_getElem (hevolves.tidy.housed task _ htask)) with ⟨c', hc', -⟩
    have hduty' := duty_of_task? hc' htask
    rcases hevolves.before hc' with ⟨spec, rfl⟩ | ⟨c, hc, rfl⟩
    . cases hduty'
    . rcases Cell.goesOn_step he hduty' with ⟨d, hduty, hgoes⟩
      cases hgoes
      exact task?_of_duty hc hduty
  . rcases task?_step htidy he htask with hold | ⟨hle, -⟩
    . exact hold
    . exact absurd hlt (Nat.not_lt.mpr hle)

theorem enters_throughout (h : Reachable limits (fun _ _ => True) r) (hlt : task < r.nextTask) (es : List Event)
    (htask : (r.after es).task? task = some ⟨slot, .enter op⟩)
    : r.task? task = some ⟨slot, .enter op⟩ := by
  induction es generalizing r with
  | nil => exact htask
  | cons e es ih =>
    exact enters_before h hlt (ih (h.step trivial) (Nat.lt_of_lt_of_le hlt (le_nextTask_step r e)) htask)

theorem not_enter_apply (r : Registry) (slot : Slot) (task : TaskId) (op : Operation) (m : Move)
    : (r.apply slot task op m).1.task? task ≠ some ⟨slot, .enter op⟩ := by
  unfold apply
  dsimp only
  split
  . simp
  . simp only [leave]
    split <;> simp
  . simp only [leave]
    split <;> simp

theorem idle_of_enters {e : Event} (he : e.task? = some task) (htask : r.task? task = some ⟨slot, .enter op⟩)
    (hb : r.boxes[slot]? = some b) (hafter : (r.step e).1.task? task = some ⟨slot, .enter op⟩)
    : r.Idle task e := by
  cases e with
  | turn now t =>
    cases he
    cases hclaim : (b.claim task).1 with
    | true =>
      simp only [step, run, htask, hb, withBox, hclaim, if_true] at hafter
      exact absurd hafter (not_enter_apply _ slot task op _)
    | false => exact idle_wait htask hb now hclaim
  | reply now t reply =>
    cases he
    exact idle_of_eq (by simp [step, answer, htask, hb]) task
  | _ => cases he

def IdleBy (task : TaskId) (r : Registry) (es : List Event) : Prop :=
  ∀ past e rest, es = past ++ e :: rest → e.task? = some task → (r.after past).Idle task e

theorem idleBy_of_enters (h : Reachable limits (fun _ _ => True) r) (hlt : task < r.nextTask) {es : List Event}
    (htask : (r.after es).task? task = some ⟨slot, .enter op⟩)
    : IdleBy task r es := by
  rintro past e rest rfl he
  have hreach : Reachable limits (fun _ _ => True) (r.after past) := h.after fun _ _ _ => trivial
  have hlt' : task < (r.after past).nextTask := Nat.lt_of_lt_of_le hlt (le_nextTask_after r past)
  rw [after_append] at htask
  have hnow := enters_throughout hreach hlt' (e :: rest) htask
  have hthen := enters_throughout (hreach.step trivial) (Nat.lt_of_lt_of_le hlt' (le_nextTask_step _ e)) rest htask
  have hbox := List.getElem?_eq_getElem ((tidy_of_reachable hreach).housed task _ hnow)
  exact idle_of_enters he hnow hbox hthen

theorem IdleBy.concat {es : List Event} {e : Event} (h : IdleBy task r es) (he : (r.after es).Idle task e)
    : IdleBy task r (es ++ [e]) := by
  intro past x rest heq hx
  rcases List.eq_nil_or_concat rest with rfl | ⟨rest, last, rfl⟩
  . obtain ⟨rfl, hlast⟩ := List.append_inj' heq rfl
    cases hlast
    exact he
  . rw [List.concat_eq_append, ← List.cons_append, ← List.append_assoc] at heq
    exact h past x rest (List.append_inj' heq rfl).1 hx

section Create

variable {request : Request}

theorem isTaken_of_registered (h : r.Indexed) (hb : b ∈ r.registered) {name : String} (hname : b.spec.name = some name)
    : r.isTaken (some name) = true := by
  rcases mem_registered.mp hb with ⟨slot, hslot, hlisted⟩
  have hlookup := (lookup_names h).mpr ⟨slot, b.spec, ⟨b, hslot, hlisted, rfl⟩, rfl, hname⟩
  simp [isTaken, hlookup]

theorem create_refused (h : r.Indexed)
    (hrefused : request.Improper ∨ ∃ b ∈ r.registered, ∃ name, request.name = some name ∧ b.spec.name = some name)
    (now : Moment) (clock chance : Nat)
    : ∃ reason, r.create request now clock chance = .error (.invalidSpec reason) := by
  simp only [create, bind, Except.bind]
  cases hresolve : request.resolve with
  | error f =>
    rcases Request.resolve_eq_error hresolve with ⟨reason, rfl⟩
    exact ⟨reason, rfl⟩
  | ok granted =>
    rcases hrefused.resolve_left (Request.proper_of_resolve hresolve) with ⟨b, hb, name, hname, hspec⟩
    have htaken := isTaken_of_registered h hb hspec
    simp only [hname, htaken, if_true]
    exact ⟨_, rfl⟩

end Create

/--
A call that the registry refuses comes to nothing. A key that fits no registered box begins nothing, a request that
is improper or asks for a name that is taken creates nothing, and an operation that the status of its box does not
allow, or whose box was removed in the meantime, ends in this fault. It has not dealt with the backend since it was
called for, and it has left the registry as it was.
-/
theorem refused_calls_are_idle (h : Reachable limits (fun _ _ => True) r)
    : (∀ key, (∀ b ∈ r.registered, b.spec.answersTo key = false) →
        ∀ s : Service, s.registry = r → s.closed = false →
          (∀ op, s.begin key op = .error (.notFound key)) ∧ s.get key = .error (.notFound key)) ∧
      (∀ request now clock chance,
        (request.Improper ∨ ∃ b ∈ r.registered, ∃ name, request.name = some name ∧ b.spec.name = some name) →
          (∃ reason, r.create request now clock chance = .error (.invalidSpec reason)) ∧
          r.step (.create request now clock chance) = (r, [])) ∧
      ∀ slot op es now b f, slot < r.boxes.length →
        let begun := (r.step (.begin slot op)).1
        (begun.after es).task? r.nextTask = some ⟨slot, .enter op⟩ → (begun.after es).boxes[slot]? = some b →
          (b.claim r.nextTask).1 = true → b.refusal? op = some f →
            ((begun.after es).step (.turn now r.nextTask)).2.filterMap Effect.result? = [(r.nextTask, .error f)] ∧
            ((begun.after es).step (.turn now r.nextTask)).1.task? r.nextTask = none ∧
            r.Idle r.nextTask (.begin slot op) ∧ IdleBy r.nextTask begun (es ++ [.turn now r.nextTask]) := by
  have hindexed := indexed_of_reachable h
  refine ⟨?_, ?_, ?_⟩
  . rintro key hnone s rfl hopen
    have hlookup := (lookup_eq_notFound_iff hindexed key).mpr hnone
    have hgate : s.gate = .ok () := by simp [Service.gate, hopen]
    constructor
    . intro op
      simp only [Service.begin, hgate, hlookup, bind, Except.bind]
    . simp only [Service.get, hgate, hlookup, bind, Except.bind]
  . intro request now clock chance hrefused
    rcases create_refused hindexed hrefused now clock chance with ⟨reason, hcreate⟩
    exact ⟨⟨reason, hcreate⟩, by simp only [step, hcreate]⟩
  . intro slot op es now b f hslot begun htask hb hclaim hrefusal
    have hbegun : Reachable limits (fun _ _ => True) begun := h.step trivial
    have hlt : r.nextTask < begun.nextTask := by simp [begun, step, hslot, begin, spawn, assign, dropTask]
    rcases step_refused htask hb now hclaim hrefusal with ⟨woken, hwoken, hstep⟩
    have hidle := (idleBy_of_enters hbegun hlt htask).concat (idle_refused htask hb now hclaim hrefusal)
    refine ⟨?_, ?_, idle_begin (tidy_of_reachable h) hslot op, hidle⟩
    . rw [hstep, List.filterMap_append, Cell.filterMap_wakes hwoken fun _ => rfl]
      rfl
    . rw [hstep]
      simp

theorem refused_calls_are_idle_removeOfSuspended
    : let r := ({} : Registry).after (launchAndSuspend.take 7)
      let begun := (r.step (.begin 0 (.remove false))).1
      let es : List Event := [.turn ⟨1, 0⟩ 3, .reply ⟨1, 0⟩ 2 .done]
      ({ registry := r } : Service).get "web" = .error (.notFound "web") ∧
        r.step (.create { image := "alpine", cpus := some 0 } ⟨1, 0⟩ 1 0) = (r, []) ∧
        ∃ b, (begun.after es).boxes[0]? = some b ∧ b.record.status = .paused ∧
          ((begun.after es).step (.turn ⟨2, 0⟩ 3)).2.filterMap Effect.result? =
            [(3, .error (.invalidTransition "paused" "remove"))] ∧
          r.Idle 3 (.begin 0 (.remove false)) ∧ IdleBy 3 begun (es ++ [.turn ⟨2, 0⟩ 3]) := by
  intro r begun es
  have hreachable : Reachable {} (fun _ _ => True) r := Reachable.start.after fun _ _ _ => trivial
  rcases refused_calls_are_idle hreachable with ⟨hkeys, hcreate, hoperations⟩
  have hnone : ∀ b ∈ r.registered, b.spec.answersTo "web" = false := by decide +kernel
  have hlt : 0 < r.boxes.length := by decide
  have hrefused := hoperations 0 (.remove false) es ⟨2, 0⟩ _ (.invalidTransition "paused" "remove") hlt rfl rfl rfl rfl
  refine ⟨(hkeys "web" hnone _ rfl rfl).2, (hcreate _ ⟨1, 0⟩ 1 0 (.inl (.cpus rfl))).2, _, rfl, rfl, hrefused.1, ?_⟩
  exact hrefused.2.2

end Registry

end BoxRegistry
