import BoxRegistry.Proofs.Registry.ExitWatch
import BoxRegistry.Proofs.Registry.Removal
import BoxRegistry.Proofs.Registry.Suspension
import BoxRegistry.Proofs.Registry.StopAnswers

namespace BoxRegistry

open Time (Moment Span)
open Heard

def Effect.released? : Effect → Option Pid
  | release pid => some pid
  | call .. | wake _ | settled .. => none

def Deed.guards : Deed → Bool
  | watch _ | disarm => true
  | count _ | release _ | unlist => false

theorem Deed.enact_guards {deeds : List Deed} (h : ∀ deed ∈ deeds, deed.guards = true) (name : Option String)
    (p : Papers)
    : deeds.foldl (enact name) p = p := by
  induction deeds with
  | nil => rfl
  | cons deed deeds ih =>
    have hdeed := h deed List.mem_cons_self
    have hdeeds := ih fun deed hmem => h deed (List.mem_cons_of_mem _ hmem)
    cases deed with
    | watch pid => exact hdeeds
    | disarm => exact hdeeds
    | _ => cases hdeed

theorem Deed.released_guards {deeds : List Deed} (h : ∀ deed ∈ deeds, deed.guards = true)
    : deeds.filterMap released? = [] := by
  rw [List.filterMap_eq_nil_iff]
  intro deed hmem
  have hdeed := h deed hmem
  cases deed with
  | release pid => cases hdeed
  | _ => rfl

namespace Cell

variable {c : Cell} {limits : Limits} {fresh task : TaskId} {b : Box} {pid : Pid} {grace : Span} {heard : List Heard}

def hears? (c : Cell) (limits : Limits) (task : TaskId) : Registry.Event → Option Heard
  | .reply _ t reply =>
    if t = task then
      ((c.duty t).bind (Duty.call? limits c.box.spec)).map fun asked => ⟨asked.1, asked.2, reply⟩
    else none
  | .create .. | .begin .. | .turn .. | .describe .. => none

structure Stopping (c : Cell) (b : Box) (task : TaskId) (pid : Pid) (grace : Span) (heard : List Heard) : Prop where
  works : ∃ stage, c.duty task = some (.work (.stop grace) stage) ∧ UpTo pid grace heard stage
  agrees : b.Agrees c.box

theorem not_released_apply {m : Move} (h : ∀ deed ∈ m.deeds, deed.guards = true) (c : Cell) (limits : Limits)
    (fresh task : TaskId) (op : Operation) (pid : Pid)
    : .release pid ∉ (c.apply limits fresh task op m).2 := by
  have heffects := filterMap_apply (f := Effect.released?) c limits fresh task op m (fun _ => rfl) fun _ _ => rfl
  rw [Deed.released_guards h] at heffects
  intro hmem
  have hreleased := List.mem_filterMap.mpr ⟨_, hmem, (rfl : Effect.released? (.release pid) = some pid)⟩
  rw [heffects] at hreleased
  cases hnext : m.next <;> simp [hnext, Effect.released?] at hreleased

section Aside

variable (h : c.Sound) (hbelow : c.Below fresh) (hstopping : c.Stopping b task pid grace heard)
include h hbelow hstopping

theorem Sound.stopping_aside (limits : Limits) (slot : Slot) {e : Registry.Event}
    (he : ∀ now reply, e ≠ .reply now task reply)
    : (c.step limits fresh slot e).1.Stopping b task pid grace heard := by
  rcases hstopping.works with ⟨stage, hduty, hupTo⟩
  rcases h.work_aside hbelow hduty limits slot he with ⟨hkept, huntouched⟩
  exact ⟨⟨stage, hkept, hupTo⟩, hstopping.agrees.trans ⟨huntouched.spec, huntouched.record, huntouched.removed⟩⟩

end Aside

section Reply

variable {now : Moment} {reply : Reply}

theorem Sound.stopping_reply (h : c.Sound) (hstopping : c.Stopping b task pid grace heard) (limits : Limits)
    (now : Moment)
    (hwhole : ∀ x, c.hears? limits task (.reply now task reply) = some x → ∀ message, x.reply ≠ .panicked message)
    : ∃ x m, c.hears? limits task (.reply now task reply) = some x ∧
        c.deeds limits (.reply now task reply) = m.deeds ∧
        (∀ fresh, c.reply limits fresh now task reply = c.apply limits fresh task (.stop grace) m) ∧
        c.box.Stops now pid grace (heard ++ [x]) m := by
  rcases hstopping.works with ⟨stage, hduty, hupTo⟩
  have hruns := hupTo.runs (h.fits task _ _ hduty)
  have hx : c.hears? limits task (.reply now task reply) =
      some ⟨stage.call c.box.spec, stage.bound limits, reply⟩ := by
    simp only [hears?, if_true, hduty, Option.bind_some, Duty.call?, Option.map_some]
  refine ⟨_, _, hx, ?_, ?_, Operation.stops_proceed (hwhole _ hx) hupTo hruns limits now⟩
  . simp only [deeds, hduty]
  . intro fresh
    simp only [Cell.reply, hduty]

variable {stage : Stage}

theorem stopping_await (hagrees : b.Agrees c.box) (hupTo : UpTo pid grace heard stage) {m : Move}
    (hbox : m.box = c.box) (hnext : m.next = .wait stage) (limits : Limits) (fresh task : TaskId)
    : (c.apply limits fresh task (.stop grace) m).1.Stopping b task pid grace heard where
  works := ⟨stage, c.duty_apply_wait limits fresh task _ hnext, hupTo⟩
  agrees := hagrees.trans (agrees_apply hbox limits fresh task _)

end Reply

end Cell

namespace Registry

variable {limits : Limits} {allowed : Registry → Event → Prop} {r : Registry} {slot : Slot} {task : TaskId} {c : Cell}
  {b : Box} {pid : Pid} {grace : Span}

def heard (slot : Slot) (task : TaskId) (r : Registry) : List Event → List Heard
  | [] => []
  | e :: es => ((r.cell? slot).bind (Cell.hears? · r.limits task e)).toList ++ heard slot task (r.step e).1 es

structure Harmless (r : Registry) (slot : Slot) (e : Event) : Prop where
  spares : Spares r (r.step e).1 slot
  released : ∀ pid, .release pid ∉ (r.step e).2

def HarmlessBy (task : TaskId) (slot : Slot) (r : Registry) (es : List Event) : Prop :=
  ∀ past e rest, es = past ++ e :: rest → e.task? = some task → (r.after past).Harmless slot e

theorem harmlessBy_nil (task : TaskId) (slot : Slot) (r : Registry) : HarmlessBy task slot r [] := by
  intro past e rest heq
  simp at heq

theorem HarmlessBy.cons {e : Event} {es : List Event} (h : HarmlessBy task slot (r.step e).1 es)
    (he : e.task? = some task → r.Harmless slot e)
    : HarmlessBy task slot r (e :: es) := by
  intro past x rest heq hx
  cases past with
  | nil =>
    cases heq
    exact he hx
  | cons y past =>
    cases heq
    exact h past x rest rfl hx

/--
A stop of the box at a place is going on: it waits for an answer, of which there are five at most. When it has told
a suspended process to go on it asks the process to end, also if it would not go on.
-/
structure GoesOn (r : Registry) (slot : Slot) (b : Box) (task : TaskId) (pid : Pid) (grace : Span)
    (heard : List Heard) : Prop where
  waits : ∃ stage, r.task? task = some ⟨slot, .work (.stop grace) stage⟩ ∧
    (stage.bound r.limits = .unlimited → stage.call b.spec = .resume pid ∨ stage.call b.spec = .terminate pid true) ∧
    ∀ reply, heard = [⟨.resume pid, .unlimited, reply⟩] → stage = .asking pid grace
  few : heard.length < 5
  table : ∃ b', r.boxes[slot]? = some b' ∧ b.Agrees b'

structure Completes (r : Registry) (slot : Slot) (b : Box) (task : TaskId) (pid : Pid) (grace : Span)
    (heard : List Heard) (e : Event) : Prop where
  result : (r.step e).2.filterMap Effect.result? = [(task, .ok ())]
  gone : (r.step e).1.task? task = none
  unrejected : ∀ f, ¬Rejected pid heard f
  record : ∃ now forced code b', (r.step e).1.boxes[slot]? = some b' ∧ b'.removed = false ∧
    b'.record = b.record.finish now .stopped (.stopped forced code) ∧ Truthful pid grace heard forced code

structure GivesUp (r : Registry) (slot : Slot) (b : Box) (task : TaskId) (pid : Pid) (grace : Span)
    (heard : List Heard) (e : Event) : Prop where
  result : ∃ f, (r.step e).2.filterMap Effect.result? = [(task, .error (.stopFailed f.message))] ∧ Rejected pid heard f
  gone : (r.step e).1.task? task = none
  disobeyed : ¬Obeyed pid grace heard
  table : ∃ b', (r.step e).1.boxes[slot]? = some b' ∧ b.Agrees b'
  watched : ∃ w, ∀ t p, (r.step e).1.Watcher slot t p ↔ t = w ∧ p = pid

theorem harmless_of_deeds (h : r.Tidy) (hc : r.cell? slot = some c) {e : Event} (he : e.slot? r = some slot)
    (hdeeds : ∀ deed ∈ c.deeds r.limits e, deed.guards = true)
    (hreleased : ∀ pid, .release pid ∉ (c.step r.limits r.nextTask slot e).2)
    : r.Harmless slot e := by
  have hchanges := changes_step h hc he
  have hpapers := papers_step h hc he
  rw [Deed.enact_guards hdeeds] at hpapers
  refine ⟨⟨congrArg Papers.ids hpapers, congrArg Papers.names hpapers, congrArg Papers.counters hpapers,
    hchanges.1.others⟩, ?_⟩
  rw [hchanges.2]
  exact hreleased

theorem hears?_of_ne {e : Event} (he : ∀ now reply, e ≠ .reply now task reply) (limits : Limits)
    : c.hears? limits task e = none := by
  cases e with
  | reply now t reply =>
    have hne : t ≠ task := by
      rintro rfl
      exact he now reply rfl
    simp [Cell.hears?, hne]
  | _ => rfl

section Run

variable {said : List Heard}

theorem stopping_aside (h : Reachable limits allowed r) (hc : r.cell? slot = some c)
    (hstopping : c.Stopping b task pid grace said) {e : Event} (he : ∀ now reply, e ≠ .reply now task reply)
    : (c.step r.limits r.nextTask slot e).1.Stopping b task pid grace said ∧
      (e.task? = some task → r.Harmless slot e) := by
  have htidy := tidy_of_reachable h
  have hbelow := below_of_tidy htidy hc
  refine ⟨(sound_of_reachable h hc).stopping_aside hbelow hstopping r.limits slot he, ?_⟩
  intro htask
  rcases hstopping.works with ⟨stage, hduty, -⟩
  cases e with
  | turn now t =>
    obtain rfl := Option.some.inj htask
    have hslot : (Event.turn now t).slot? r = some slot := slot?_of_duty rfl hc hduty
    apply harmless_of_deeds htidy hc hslot
    . simp [Cell.deeds, Cell.deedsOfTurn, hduty]
    . simp [Cell.step_turn_work hduty]
  | reply now t reply =>
    obtain rfl := Option.some.inj htask
    exact absurd rfl (he now reply)
  | _ => cases htask

section Concludes

variable {e : Event} {m : Move} {c' : Cell}
  (hchanges : Changes r (r.step e).1 slot (c.apply r.limits r.nextTask task (.stop grace) m).1 ∧
    (r.step e).2 = (c.apply r.limits r.nextTask task (.stop grace) m).2)
include hchanges

theorem results_of_changes {result : Except Fault Unit} (hnext : m.next = .finish result)
    : (r.step e).2.filterMap Effect.result? = [(task, result)] := by
  rw [hchanges.2]
  exact c.results_finish r.limits r.nextTask task _ hnext

theorem completes_of_changes (h : r.Tidy) (hagrees : b.Agrees c.box) {now : Moment} {forced : Bool} {code : Option Int}
    (hnext : m.next = .finish (.ok ())) (hlisted : m.box.removed = false)
    (hrecord : m.box.record = c.box.record.finish now .stopped (.stopped forced code))
    (htruthful : Truthful pid grace said forced code) (hunrejected : ∀ f, ¬Rejected pid said f)
    : r.Completes slot b task pid grace said e := by
  have hresults := results_of_changes hchanges hnext
  have hbox := c.box_apply r.limits r.nextTask task (.stop grace) m
  refine ⟨hresults, gone_of_results h hresults, hunrejected, now, forced, code, _, hchanges.1.box, ?_, ?_, htruthful⟩
  . rw [hbox.2.2, hlisted]
  . rw [hbox.2.1, hrecord, hagrees.record]

theorem givesUp_of_changes (h : r.Tidy) (hagrees : b.Agrees c.box) {f : Fault}
    (hm : m = { c.box.refuse (.stopFailed f.message) with deeds := [.watch pid] })
    (hsound : (c.apply r.limits r.nextTask task (.stop grace) m).1.Sound) (hlt : task < r.nextTask)
    (hdisobeyed : ¬Obeyed pid grace said) (hrejected : Rejected pid said f)
    : r.GivesUp slot b task pid grace said e := by
  subst hm
  have hresults := results_of_changes hchanges rfl
  have hsame := Cell.agrees_apply (c := c) (m := { c.box.refuse (.stopFailed f.message) with deeds := [.watch pid] })
    rfl r.limits r.nextTask task (.stop grace)
  have hwatch := c.watch_apply r.limits (Nat.ne_of_lt hlt) (.stop grace)
    (m := { c.box.refuse (.stopFailed f.message) with deeds := [.watch pid] }) [] rfl rfl
  refine ⟨⟨f, hresults, hrejected⟩, gone_of_results h hresults, hdisobeyed, ?_, r.nextTask, ?_⟩
  . exact ⟨_, hchanges.1.box, hagrees.trans hsame⟩
  . exact watcher_of_duty hchanges.1.cell hsound hwatch.1 hwatch.2 rfl

end Concludes

theorem stopping_reply (h : Reachable limits allowed r) (hc : r.cell? slot = some c)
    (hstopping : c.Stopping b task pid grace said) (now : Moment) {reply : Reply}
    (hwhole : ∀ x, c.hears? r.limits task (.reply now task reply) = some x → ∀ message, x.reply ≠ .panicked message)
    : ∃ x, c.hears? r.limits task (.reply now task reply) = some x ∧
        ((c.step r.limits r.nextTask slot (.reply now task reply)).1.Stopping b task pid grace (said ++ [x]) ∧
            r.Harmless slot (.reply now task reply) ∨
          r.Completes slot b task pid grace (said ++ [x]) (.reply now task reply) ∨
          r.GivesUp slot b task pid grace (said ++ [x]) (.reply now task reply) ∧
            r.Harmless slot (.reply now task reply)) := by
  have htidy := tidy_of_reachable h
  have hsound := sound_of_reachable h hc
  have hbelow := below_of_tidy htidy hc
  rcases hstopping.works with ⟨stage, hduty, -⟩
  have hslot : (Event.reply now task reply).slot? r = some slot := slot?_of_duty rfl hc hduty
  have hchanges := changes_step htidy hc hslot
  have hsound' := hsound.step hbelow r.limits slot (.reply now task reply)
  rcases hsound.stopping_reply hstopping r.limits now hwhole with ⟨x, m, hx, hdeeds, hreply, hstops⟩
  have hstep : c.step r.limits r.nextTask slot (.reply now task reply) =
      c.apply r.limits r.nextTask task (.stop grace) m := hreply r.nextTask
  have hharmless : (∀ deed ∈ m.deeds, deed.guards = true) → r.Harmless slot (.reply now task reply) := by
    intro hguards
    apply harmless_of_deeds htidy hc hslot (by rwa [hdeeds])
    rw [hstep]
    exact Cell.not_released_apply hguards c r.limits r.nextTask task _
  rw [hstep] at hchanges hsound'
  refine ⟨x, hx, ?_⟩
  rw [hstep]
  cases hstops with
  | goesOn upTo =>
    exact .inl ⟨Cell.stopping_await hstopping.agrees upTo rfl rfl _ _ _, hharmless (by simp [Box.await])⟩
  | ends truthful unrejected =>
    have hlisted := (hsound.fits task _ _ hduty).listed
    exact .inr (.inl (completes_of_changes hchanges htidy hstopping.agrees rfl hlisted rfl truthful unrejected))
  | givesUp disobeyed rejected =>
    have hlt := hbelow.duty task _ hduty
    exact .inr (.inr ⟨givesUp_of_changes hchanges htidy hstopping.agrees rfl hsound' hlt disobeyed rejected,
      hharmless (by simp [Deed.guards])⟩)

def Pursues (r : Registry) (slot : Slot) (b : Box) (task : TaskId) (pid : Pid) (grace : Span) (said : List Heard)
    (es : List Event) : Prop :=
  (∃ c, (r.after es).cell? slot = some c ∧ c.Stopping b task pid grace (said ++ r.heard slot task es) ∧
      HarmlessBy task slot r es) ∨
    ∃ past e rest, es = past ++ e :: rest ∧
      ((r.after past).Completes slot b task pid grace (said ++ r.heard slot task (past ++ [e])) e ∨
        (r.after past).GivesUp slot b task pid grace (said ++ r.heard slot task (past ++ [e])) e ∧
          HarmlessBy task slot r (past ++ [e]))

theorem heard_cons (hc : r.cell? slot = some c) (task : TaskId) (e : Event) (es : List Event)
    : r.heard slot task (e :: es) = (c.hears? r.limits task e).toList ++ (r.step e).1.heard slot task es := by
  simp [heard, hc]

theorem Pursues.cons (hc : r.cell? slot = some c) {e : Event} {es : List Event}
    (h : (r.step e).1.Pursues slot b task pid grace (said ++ (c.hears? r.limits task e).toList) es)
    (hharmless : e.task? = some task → r.Harmless slot e)
    : r.Pursues slot b task pid grace said (e :: es) := by
  rcases h with ⟨c', hc', hstopping, hby⟩ | ⟨past, x, rest, rfl, hconcludes⟩
  . refine .inl ⟨c', hc', ?_, hby.cons hharmless⟩
    rwa [heard_cons hc, ← List.append_assoc]
  . refine .inr ⟨e :: past, x, rest, rfl, ?_⟩
    rw [List.cons_append, heard_cons hc, ← List.append_assoc]
    exact hconcludes.imp id fun ⟨hgivesUp, hby⟩ => ⟨hgivesUp, hby.cons hharmless⟩

theorem stopping_after (h : Reachable limits (fun _ _ => True) r) (hc : r.cell? slot = some c)
    (hstopping : c.Stopping b task pid grace said) (es : List Event)
    (hwhole : ∀ x ∈ r.heard slot task es, ∀ message, x.reply ≠ .panicked message)
    : r.Pursues slot b task pid grace said es := by
  induction es generalizing r c said with
  | nil => exact .inl ⟨c, hc, by simpa [heard] using hstopping, harmlessBy_nil task slot r⟩
  | cons e es ih =>
    have hcell := (evolves (tidy_of_reachable h) e).cell slot c hc
    rw [heard_cons hc] at hwhole
    have hlater : ∀ x ∈ (r.step e).1.heard slot task es, ∀ message, x.reply ≠ .panicked message :=
      fun x hx => hwhole x (List.mem_append_right _ hx)
    by_cases hreply : ∃ now reply, e = .reply now task reply
    . rcases hreply with ⟨now, reply, rfl⟩
      have hnow : ∀ x, c.hears? r.limits task (.reply now task reply) = some x →
          ∀ message, x.reply ≠ .panicked message :=
        fun x hx => hwhole x (by simp [hx])
      rcases stopping_reply h hc hstopping now hnow with ⟨x, hx, hgoes⟩
      have hlast : r.heard slot task ([] ++ [.reply now task reply]) = [x] := by
        rw [List.nil_append, heard_cons hc, hx]
        rfl
      rcases hgoes with ⟨hgoes, hharmless⟩ | hcompletes | ⟨hgivesUp, hharmless⟩
      . have hrest := ih (h.step trivial) hcell hgoes hlater
        exact Pursues.cons hc (by rwa [hx]) fun _ => hharmless
      . exact .inr ⟨[], _, es, rfl, .inl (by rwa [hlast])⟩
      . exact .inr ⟨[], _, es, rfl, .inr ⟨by rwa [hlast], (harmlessBy_nil _ _ _).cons fun _ => hharmless⟩⟩
    . have haside : ∀ now reply, e ≠ .reply now task reply := fun now reply heq => hreply ⟨now, reply, heq⟩
      rcases stopping_aside h hc hstopping haside with ⟨hgoes, hharmless⟩
      have hrest := ih (h.step trivial) hcell hgoes hlater
      exact Pursues.cons hc (by simpa [hears?_of_ne haside] using hrest) hharmless

theorem goesOn_of_stopping (hc : r.cell? slot = some c) (h : c.Stopping b task pid grace said)
    : r.GoesOn slot b task pid grace said := by
  rcases h.works with ⟨stage, hduty, hupTo⟩
  refine ⟨⟨stage, task?_of_duty hc hduty, ?_, ?_⟩, hupTo.length_lt, c.box, (cell?_eq_some.mp hc).1, h.agrees⟩
  . exact fun hbound => hupTo.call_of_unlimited hbound b.spec
  . rintro reply rfl
    exact hupTo.asking_of_resumed

theorem stopping_enter (h : Reachable limits allowed r) (hc : r.cell? slot = some c) (hruns : c.box.Runs pid)
    (hduty : c.duty task = some (.enter (.stop grace))) (hclaim : (c.box.claim task).1 = true) (now : Moment)
    : (c.step r.limits r.nextTask slot (.turn now task)).1.Stopping c.box task pid grace [] ∧
      r.Harmless slot (.turn now task) := by
  have htidy := tidy_of_reachable h
  have hslot : (Event.turn now task).slot? r = some slot := slot?_of_duty rfl hc hduty
  have huntouched := c.box.untouched_claim task
  rcases Operation.stops_enter (hruns.congr huntouched.record huntouched.removed) grace with ⟨stage, henter, hupTo⟩
  have hstep : c.step r.limits r.nextTask slot (.turn now task) =
      Cell.apply { c with box := (c.box.claim task).2 } r.limits r.nextTask task (.stop grace)
        { (c.box.claim task).2.await stage with deeds := [.disarm] } := by
    rw [Cell.step_enter hduty hclaim, henter]
  have hguards : ∀ deed ∈ [Deed.disarm], deed.guards = true := by simp [Deed.guards]
  constructor
  . rw [hstep]
    have hagrees : c.box.Agrees (c.box.claim task).2 := ⟨huntouched.spec, huntouched.record, huntouched.removed⟩
    exact Cell.stopping_await (c := { c with box := (c.box.claim task).2 }) hagrees hupTo rfl rfl _ _ _
  . apply harmless_of_deeds htidy hc hslot
    . simp only [Cell.deeds, Cell.deedsOfTurn, hclaim, hduty, if_true, henter]
      exact hguards
    . rw [hstep]
      exact Cell.not_released_apply hguards _ _ _ _ _

/--
A stop of an active box ends in one of two ways, whatever else happens and whatever the backend answers. Either it
is completed, and the record says truthfully whether the process was forced to end and with which code it ended.
Or the process has not ended when it was asked to and the backend would not kill it, and then nothing is changed.
-/
theorem stop_is_truthful (h : Reachable limits (fun _ _ => True) r) (hb : r.boxes[slot]? = some b)
    (hactive : b.record.status.isActive = true) (htask : r.task? task = some ⟨slot, .enter (.stop grace)⟩)
    (hclaim : (b.claim task).1 = true) (now : Moment) (es : List Event)
    (hwhole : ∀ x ∈ r.heard slot task (.turn now task :: es), ∀ message, x.reply ≠ .panicked message)
    : ∃ pid, b.record.pid = some pid ∧
        ((r.after (.turn now task :: es)).GoesOn slot b task pid grace (r.heard slot task (.turn now task :: es)) ∧
            HarmlessBy task slot r (.turn now task :: es) ∨
          ∃ past e rest, .turn now task :: es = past ++ e :: rest ∧
            ((r.after past).Completes slot b task pid grace (r.heard slot task (past ++ [e])) e ∨
              (r.after past).GivesUp slot b task pid grace (r.heard slot task (past ++ [e])) e ∧
                HarmlessBy task slot r (past ++ [e]))) := by
  rcases exists_cell? hb with ⟨c, hc, rfl⟩
  have hduty : c.duty task = some (.enter (.stop grace)) := by rw [← (cell?_eq_some.mp hc).2, duty?_eq_some, htask]
  rcases (sound_of_reachable h hc).coherent.exists_runs hactive with ⟨pid, hruns⟩
  rcases stopping_enter h hc hruns hduty hclaim now with ⟨hstopping, hharmless⟩
  have hcell := (evolves (tidy_of_reachable h) (.turn now task)).cell slot c hc
  rw [heard_cons hc] at hwhole
  have hrest := stopping_after (h.step trivial) hcell hstopping es hwhole
  have hpursues : r.Pursues slot c.box task pid grace [] (.turn now task :: es) :=
    Pursues.cons hc hrest fun _ => hharmless
  refine ⟨pid, hruns.pid, ?_⟩
  rcases hpursues with ⟨c', hc', hgoesOn, hby⟩ | hconcludes
  . exact .inl ⟨goesOn_of_stopping hc' hgoesOn, hby⟩
  . exact .inr hconcludes

def unwilling : List Event :=
  [.reply ⟨3, 0⟩ 3 (.failed (.engine "stuck")), .reply ⟨3, 0⟩ 3 .done, .reply ⟨8, 0⟩ 3 .late,
    .reply ⟨8, 0⟩ 3 (.failed (.engine "not permitted"))]

theorem stop_is_truthful_unwilling
    : let r := ({} : Registry).after (suspendAndStop.take 9)
      ∃ b, r.boxes[0]? = some b ∧ b.record.status = .paused ∧
        ∃ past e rest, .turn ⟨2, 0⟩ 3 :: unwilling = past ++ e :: rest ∧
          ((r.after past).Completes 0 b 3 7 ⟨5000000000⟩ (r.heard 0 3 (past ++ [e])) e ∨
            (r.after past).GivesUp 0 b 3 7 ⟨5000000000⟩ (r.heard 0 3 (past ++ [e])) e ∧
              HarmlessBy 3 0 r (past ++ [e])) := by
  intro r
  have hreachable : Reachable {} (fun _ _ => True) r := Reachable.start.after fun _ _ _ => trivial
  have hheard : r.heard 0 3 (.turn ⟨2, 0⟩ 3 :: unwilling) =
      [⟨.resume 7, .unlimited, .failed (.engine "stuck")⟩, ⟨.terminate 7 false, .within ⟨5000000000⟩, .done⟩,
        ⟨.wait 7, .remaining, .late⟩, ⟨.terminate 7 true, .unlimited, .failed (.engine "not permitted")⟩] := by
    decide +kernel
  have hwhole : ∀ x ∈ r.heard 0 3 (.turn ⟨2, 0⟩ 3 :: unwilling), ∀ message, x.reply ≠ .panicked message := by
    rw [hheard]
    simp
  refine ⟨_, rfl, rfl, ?_⟩
  rcases stop_is_truthful hreachable rfl rfl rfl rfl ⟨2, 0⟩ unwilling hwhole with ⟨pid, hpid, ⟨hgoesOn, -⟩ | hconcludes⟩
  . rcases hgoesOn.waits with ⟨stage, htask, -⟩
    have hgone : ((r.after (.turn ⟨2, 0⟩ 3 :: unwilling)).task? 3).isNone = true := by decide +kernel
    rw [htask] at hgone
    cases hgone
  . obtain rfl : pid = 7 := Option.some.inj (hpid.symm.trans rfl)
    exact hconcludes

end Run

end Registry

end BoxRegistry
