import BoxRegistry.Proofs.Registry.Refusals
import BoxRegistry.Proofs.Registry.StopOutcome

namespace BoxRegistry

open Time (Moment)

theorem Box.holder_claim {b : Box} {task : TaskId} (hclaim : (b.claim task).1 = true)
    : { (b.claim task).2 with holder := b.holder } = b := by
  have hcases := b.claims task
  generalize b.claim task = out at hclaim hcases ⊢
  cases hcases <;> first | rfl | cases hclaim

namespace Registry

variable {limits : Limits} {allowed : Registry → Event → Prop} {r r' : Registry} {slot : Slot} {task : TaskId}
  {c : Cell} {f : Fault} {e : Event}

theorem watcher_iff_duty (hc : r.cell? slot = some c) {t : TaskId} {pid : Pid}
    : r.Watcher slot t pid ↔
      ∃ d, c.duty t = some d ∧ d.watched? = some pid ∧ (d.isVigil = true ∨ c.box.watch = some t) := by
  rcases cell?_eq_some.mp hc with ⟨hbox, hduty⟩
  simp only [Watcher, hbox, Option.bind_some, ← hduty, duty?_eq_some]

theorem watcher_congr (h : r.Tidy) (h' : r'.Tidy) (hcell : r'.cell? slot = r.cell? slot) (t : TaskId) (pid : Pid)
    : r'.Watcher slot t pid ↔ r.Watcher slot t pid := by
  cases hc : r.cell? slot with
  | none =>
    -- Tasks work on boxes that are there.
    have hnone : ∀ {r : Registry}, r.Tidy → r.cell? slot = none → ¬r.Watcher slot t pid := by
      rintro r htidy hc ⟨d, htask, -⟩
      exact absurd (htidy.housed t _ htask) (Nat.not_lt.mpr (List.getElem?_eq_none_iff.mp (cell?_eq_none.mp hc)))
    exact iff_of_false (hnone h' (hcell.trans hc)) (hnone h hc)
  | some c => rw [watcher_iff_duty hc, watcher_iff_duty (hcell.trans hc)]

/--
A task gives its box free at an event. The next one in line has it from then on and is told so, no other box is
affected, and neither is what the registry knows of names and ids.
-/
structure Frees (r : Registry) (slot : Slot) (e : Event) : Prop where
  line : ∀ b, r.boxes[slot]? = some b →
    ∃ b', (r.step e).1.boxes[slot]? = some b' ∧ b'.spec = b.spec ∧ b'.removed = b.removed ∧ b'.queue = b.queue.tail ∧
      ∀ t, b.queue = [] ∨ b.queue.head? = some t → (b'.claim t).1 = true
  woken : ∀ b t, r.boxes[slot]? = some b → b.queue.head? = some t → .wake t ∈ (r.step e).2
  others : ∀ s ≠ slot, (r.step e).1.cell? s = r.cell? s
  names : (r.step e).1.names = r.names
  ids : (r.step e).1.ids = r.ids

structure Withdraws (r : Registry) (slot : Slot) (task : TaskId) (f : Fault) (e : Event) : Prop where
  result : (r.step e).2.filterMap Effect.result? = [(task, .error f)]
  gone : (r.step e).1.task? task = none
  box : (r.step e).1.boxes[slot]? = r.boxes[slot]?.map Box.handOver
  harmless : r.Harmless slot e
  watchers : ∀ s t pid, (r.step e).1.Watcher s t pid ↔ r.Watcher s t pid
  frees : r.Frees slot e

theorem claim_of_line {b b' : Box} (hholder : b'.holder = b.queue.head?) {t : TaskId}
    (ht : b.queue = [] ∨ b.queue.head? = some t)
    : (b'.claim t).1 = true := by
  rw [Box.claim_eq_true_iff, hholder]
  rcases ht with hempty | hnext
  . exact .inl (by rw [hempty]; rfl)
  . exact .inr hnext

section Leave

variable (h : r.Tidy) (hc : r.cell? slot = some c) (he : e.slot? r = some slot)
include h hc he

theorem frees_of_leave (hdeeds : .unlist ∉ c.deeds r.limits e) {b : Box} {effects : List Effect}
    (hstep : c.step r.limits r.nextTask slot e = ((({ c with box := b } : Cell).leave task).1,
      (({ c with box := b } : Cell).leave task).2 ++ effects))
    (hspec : b.spec = c.box.spec) (hremoved : b.removed = c.box.removed) (hqueue : b.queue = c.box.queue)
    : r.Frees slot e := by
  have hchanges := changes_step h hc he
  have hpapers := papers_step h hc he
  rw [hstep] at hchanges
  have hbox := (cell?_eq_some.mp hc).1
  refine ⟨?_, ?_, hchanges.1.others, ?_, ?_⟩
  . intro b₀ hb₀
    obtain rfl := Option.some.inj (hbox.symm.trans hb₀)
    refine ⟨b.handOver, hchanges.1.box, hspec, hremoved, congrArg List.tail hqueue, ?_⟩
    exact fun t ht => claim_of_line (congrArg List.head? hqueue) ht
  . intro b₀ t hb₀ ht
    obtain rfl := Option.some.inj (hbox.symm.trans hb₀)
    rw [hchanges.2]
    apply List.mem_append_left
    simp [Cell.leave, Box.handOver, hqueue, ht]
  . have hnames := congrArg Papers.names hpapers
    rwa [Deed.names_enact, if_neg hdeeds] at hnames
  . have hids := congrArg Papers.ids hpapers
    rwa [Deed.ids_enact] at hids

theorem withdraws_of_leave (hunwatching : ∀ d, c.duty task = some d → d.watched? = none)
    (hdeeds : c.deeds r.limits e = []) {b : Box} (hb : { b with holder := c.box.holder } = c.box)
    (hstep : c.step r.limits r.nextTask slot e = ((({ c with box := b } : Cell).leave task).1,
      (({ c with box := b } : Cell).leave task).2 ++ [.settled task (.error f)]))
    : r.Withdraws slot task f e := by
  have hfrees : r.Frees slot e := by
    have hunlisted : .unlist ∉ c.deeds r.limits e := by simp [hdeeds]
    have hspec : b.spec = c.box.spec := (congrArg Box.spec hb :)
    have hremoved : b.removed = c.box.removed := (congrArg Box.removed hb :)
    have hqueue : b.queue = c.box.queue := (congrArg Box.queue hb :)
    exact frees_of_leave h hc he hunlisted hstep hspec hremoved hqueue
  have hchanges := changes_step h hc he
  rw [hstep] at hchanges
  have hresult : (r.step e).2.filterMap Effect.result? = [(task, .error f)] := by
    rw [hchanges.2, List.filterMap_append, Cell.results_leave]
    rfl
  have hharmless : r.Harmless slot e := by
    apply harmless_of_deeds h hc he (by simp [hdeeds])
    rw [hstep]
    simp [Cell.leave]
  refine ⟨hresult, gone_of_results h hresult, ?_, hharmless, ?_, hfrees⟩
  . have hline : b.handOver = c.box.handOver := (congrArg Box.handOver hb :)
    rw [hchanges.1.box, (cell?_eq_some.mp hc).1]
    exact congrArg some hline
  . intro s t pid
    by_cases hs : s = slot
    . subst hs
      have hwatch : b.handOver.watch = c.box.watch := (congrArg Box.watch hb :)
      rw [watcher_iff_duty hc, watcher_iff_duty hchanges.1.cell]
      simp only [Cell.leave, Cell.dropTask, hwatch]
      by_cases ht : t = task
      . -- The task itself has watched no process.
        subst ht
        have hnone : ¬∃ d, c.duty t = some d ∧ d.watched? = some pid ∧ (d.isVigil = true ∨ c.box.watch = some t) := by
          rintro ⟨d, hduty, hpid, -⟩
          rw [hunwatching d hduty] at hpid
          cases hpid
        simp [hnone]
      . simp [ht]
    . exact watcher_congr h hchanges.1.tidy (hchanges.1.others s hs) t pid

end Leave

theorem withdraws_of_refusal (h : Reachable limits allowed r) (hc : r.cell? slot = some c) {op : Operation}
    (hduty : c.duty task = some (.enter op)) (hclaim : (c.box.claim task).1 = true)
    (hrefusal : c.box.refusal? op = some f)
    (now : Moment)
    : r.Withdraws slot task f (.turn now task) := by
  have huntouched := c.box.untouched_claim task
  have hrefused : op.enter (c.box.claim task).2 = (c.box.claim task).2.refuse f := by
    apply Operation.enter_of_refusal
    rw [← hrefusal, Box.refusal?, Box.refusal?, huntouched.record, huntouched.removed, huntouched.spec]
  have hslot : (Event.turn now task).slot? r = some slot := slot?_of_duty rfl hc hduty
  apply withdraws_of_leave (tidy_of_reachable h) hc hslot (b := (c.box.claim task).2)
  . intro d hd
    rw [hduty] at hd
    cases hd
    rfl
  . simp only [Cell.deeds, Cell.deedsOfTurn, hclaim, if_true, hduty, hrefused]
    rfl
  . exact Box.holder_claim hclaim
  . rw [Cell.step_enter hduty hclaim, hrefused]
    rfl

theorem withdraws_of_move (h : Reachable limits allowed r) (hc : r.cell? slot = some c) {op : Operation} {stage : Stage}
    (hduty : c.duty task = some (.work op stage)) {now : Moment} {reply : Reply}
    (hmove : op.proceed r.limits now c.box stage reply = c.box.refuse f ∨
      ∃ message, op.proceed r.limits now c.box stage reply = c.box.crash message ∧ f = .brokenOff task message)
    : r.Withdraws slot task f (.reply now task reply) := by
  have hslot : (Event.reply now task reply).slot? r = some slot := slot?_of_duty rfl hc hduty
  apply withdraws_of_leave (tidy_of_reachable h) hc hslot (b := c.box)
  . intro d hd
    rw [hduty] at hd
    cases hd
    rfl
  . simp only [Cell.deeds, hduty]
    rcases hmove with hmove | ⟨message, hmove, -⟩ <;> rw [hmove] <;> rfl
  . rfl
  . rw [Cell.step_reply_work hduty]
    rcases hmove with hmove | ⟨message, hmove, rfl⟩ <;> rw [hmove] <;> rfl

end Registry

end BoxRegistry
