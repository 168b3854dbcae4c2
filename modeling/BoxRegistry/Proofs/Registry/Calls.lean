import BoxRegistry.Proofs.Registry.Exclusion

namespace BoxRegistry

open Time (Moment)

def Duty.call? (limits : Limits) (spec : Spec) : Duty → Option (Call × Bound)
  | work _ stage => some (stage.call spec, stage.bound limits)
  | watch pid => some (.wait pid, .unlimited)
  | enter _ | post _ | notice .. => none

def Duty.isFirst : Duty → Bool
  | enter _ | post _ => true
  | work .. | watch _ | notice .. => false

theorem Duty.waits_of_isFirst {d : Duty} (h : d.isFirst = true) : d.waits = false := by
  cases d <;> first | rfl | cases h

theorem Duty.waits_of_call? {limits : Limits} {spec : Spec} {d : Duty} {call : Call} {bound : Bound}
    (h : d.call? limits spec = some (call, bound))
    : d.waits = true := by
  cases d <;> first | rfl | cases h

theorem Duty.eq_launching_of_call? {limits : Limits} {spec : Spec} {d : Duty} {order : LaunchOrder}
    {bound : Bound} (h : d.call? limits spec = some (.launch order, bound))
    : ∃ op, d = .work op .launching := by
  cases d with
  | work op stage =>
    cases stage <;> cases h
    exact ⟨op, rfl⟩
  | watch pid => cases h
  | enter op => cases h
  | post pid => cases h
  | notice pid result => cases h

namespace Effect

def isCall : Effect → Bool
  | call .. => true
  | release _ | wake _ | settled .. => false

def caller? : Effect → Option TaskId
  | call task .. => some task
  | release _ | wake _ | settled .. => none

theorem filterMap_caller? (effects : List Effect)
    : effects.filterMap caller? = (effects.filter isCall).filterMap caller? := by
  rw [List.filterMap_filter]
  congr 1
  funext effect
  cases effect <;> rfl

end Effect

def Duty.made (limits : Limits) (spec : Spec) (task : TaskId) (d : Duty) : Option Effect :=
  (d.call? limits spec).map fun call => .call task call.1 call.2

namespace Cell

variable {c : Cell} {limits : Limits} {task fresh : TaskId}

section Duties

theorem duty_performAll (c : Cell) (fresh : TaskId) (deeds : List Deed) {t : TaskId} {d : Duty}
    (h : (c.performAll fresh deeds).1.duty t = some d)
    : c.duty t = some d ∨ fresh ≤ t ∧ ∃ pid, d = .post pid := by
  induction deeds generalizing c fresh with
  | nil => exact .inl h
  | cons deed deeds ih =>
    simp only [performAll] at h
    rcases ih _ _ h with hold | ⟨hle, hpost⟩
    . cases deed with
      | watch pid =>
        simp only [perform, arm, duty_assign] at hold
        split at hold
        . next heq => exact .inr ⟨Nat.le_of_eq heq.symm, pid, (Option.some.inj hold).symm⟩
        . exact .inl ((Orderly.duty_disarm c t).mp hold).1
      | disarm => exact .inl ((Orderly.duty_disarm c t).mp hold).1
      | _ => exact .inl hold
    . exact .inr ⟨Nat.le_trans (Nat.le_add_right _ _) hle, hpost⟩

theorem duty_assign_other {d d' : Duty} {t : TaskId} (hne : t ≠ task)
    (h : (c.assign task d).duty t = some d')
    : c.duty t = some d' := by
  simpa [duty_assign, hne] using h

theorem duty_apply (c : Cell) (limits : Limits) (fresh : TaskId) (op : Operation) (m : Move) {t : TaskId}
    {d : Duty} (hne : t ≠ task) (h : (c.apply limits fresh task op m).1.duty t = some d)
    : c.duty t = some d ∨ fresh ≤ t ∧ ∃ pid, d = .post pid := by
  apply duty_performAll { c with box := m.box } fresh m.deeds
  have happlies := c.applies limits fresh task op m
  generalize c.apply limits fresh task op m = out at happlies h
  cases happlies with
  | waits next => exact duty_assign_other hne h
  | leaves result quits => exact (duty_leave _ task h).2

theorem duty_step_cases (c : Cell) (limits : Limits) (fresh : TaskId) (slot : Slot) (e : Registry.Event)
    {t : TaskId} {d : Duty} (hne : e.task? ≠ some t) (h : (c.step limits fresh slot e).1.duty t = some d)
    : c.duty t = some d ∨ fresh ≤ t ∧ ((∃ pid, d = .post pid) ∨ ∃ op, e = .begin slot op ∧ d = .enter op) := by
  have hother : ∀ task, e.task? = some task → t ≠ task := by
    rintro task htask rfl
    exact hne htask
  have hsteps := c.steps limits fresh slot e
  generalize c.step limits fresh slot e = out at hsteps h
  cases hsteps with
  | rests rests => exact .inl h
  | begins op =>
    rcases duty_assign_eq_some.mp h with ⟨rfl, rfl⟩ | ⟨-, hold⟩
    . exact .inr ⟨Nat.le_refl _, .inr ⟨op, rfl, rfl⟩⟩
    . exact .inl hold
  | posts duty => exact .inl (duty_assign_other (hother _ rfl) h)
  | queues arrives unclaimed => exact .inl (duty_assign_other (hother _ arrives.task?_eq) h)
  | enters duty claimed => exact (duty_apply _ limits fresh _ _ (hother _ rfl) h).imp id (.imp id .inl)
  | proceeds duty => exact (duty_apply c limits fresh _ _ (hother _ rfl) h).imp id (.imp id .inl)
  | reports arrives claimed =>
    rcases duty_performAll _ fresh _ (duty_leave _ _ h).2 with hold | hnew
    . exact .inl (duty_assign_other (hother _ arrives.task?_eq) hold)
    . exact .inr (hnew.imp id .inl)
  | quits duty =>
    simp only [dropTask, hother _ rfl, if_false] at h
    exact .inl h
  | samples sampled => exact .inl h

theorem duty_step (c : Cell) (limits : Limits) (fresh : TaskId) (slot : Slot) (e : Registry.Event)
    {t : TaskId} {d : Duty} (hne : e.task? ≠ some t) (h : (c.step limits fresh slot e).1.duty t = some d)
    : c.duty t = some d ∨ fresh ≤ t ∧ d.isFirst = true := by
  rcases c.duty_step_cases limits fresh slot e hne h with hold | ⟨hle, ⟨pid, rfl⟩ | ⟨op, -, rfl⟩⟩
  . exact .inl hold
  . exact .inr ⟨hle, rfl⟩
  . exact .inr ⟨hle, rfl⟩

end Duties

section Calls

theorem filter_performAll (c : Cell) (fresh : TaskId) (deeds : List Deed)
    : (c.performAll fresh deeds).2.filter Effect.isCall = [] := by
  induction deeds generalizing c fresh with
  | nil => rfl
  | cons deed deeds ih =>
    simp only [performAll, List.filter_append, ih, List.append_nil]
    cases deed <;> rfl

theorem filter_leave (c : Cell) (task : TaskId) : (c.leave task).2.filter Effect.isCall = [] := by
  simp only [leave]
  cases c.box.handOver.holder <;> rfl

def made (c : Cell) (limits : Limits) (spec : Spec) (task : TaskId) : Option Effect :=
  (c.duty task).bind (Duty.made limits spec task)

theorem made_leave (c : Cell) (limits : Limits) (spec : Spec) (task : TaskId)
    : (c.leave task).1.made limits spec task = none := by
  simp [made, leave, dropTask]

theorem calls_apply (c : Cell) (limits : Limits) (fresh task : TaskId) (op : Operation) (m : Move)
    : (c.apply limits fresh task op m).2.filter Effect.isCall =
      ((c.apply limits fresh task op m).1.made limits m.box.spec task).toList := by
  have hdeeds := filter_performAll { c with box := m.box } fresh m.deeds
  have happlies := c.applies limits fresh task op m
  generalize c.apply limits fresh task op m = out at happlies ⊢
  cases happlies with
  | waits next =>
    rw [List.filter_append, hdeeds]
    simp [made, duty_assign, Duty.made, Duty.call?, Effect.isCall]
  | leaves result quits =>
    dsimp only
    rw [List.filter_append, List.filter_append, hdeeds, filter_leave, made_leave]
    rfl

theorem calls_step {slot : Slot} {e : Registry.Event} (he : e.task? = some task)
    (hrests : c.Rests slot e → c.duty task = none) (limits : Limits) (fresh : TaskId)
    : ∃ spec, (c.step limits fresh slot e).2.filter Effect.isCall =
      ((c.step limits fresh slot e).1.made limits spec task).toList := by
  have hsteps := c.steps limits fresh slot e
  generalize c.step limits fresh slot e = out at hsteps
  cases hsteps with
  | rests rests => exact ⟨c.box.spec, by simp [made, hrests rests]⟩
  | begins op => cases he
  | posts duty =>
    cases he
    exact ⟨c.box.spec, by simp [made, duty_assign, Duty.made, Duty.call?, Effect.isCall]⟩
  | @queues e now t d arrives unclaimed =>
    obtain rfl : t = task := Option.some.inj (arrives.task?_eq.symm.trans he)
    have hcall : d.call? limits c.box.spec = none := by
      cases d <;> first | rfl | cases arrives.contends
    exact ⟨c.box.spec, by simp [made, duty_assign, Duty.made, hcall]⟩
  | enters duty claimed =>
    cases he
    exact ⟨_, calls_apply _ limits fresh _ _ _⟩
  | proceeds duty =>
    cases he
    exact ⟨_, calls_apply c limits fresh _ _ _⟩
  | @reports e now t pid result arrives claimed =>
    obtain rfl : t = task := Option.some.inj (arrives.task?_eq.symm.trans he)
    refine ⟨c.box.spec, ?_⟩
    simp only [notice, List.filter_append, filter_performAll, filter_leave, made_leave]
    rfl
  | quits duty =>
    cases he
    exact ⟨c.box.spec, by simp [made, dropTask]⟩
  | samples sampled => cases he

end Calls

end Cell

namespace Registry

def Event.Timely (r : Registry) : Event → Prop
  | turn _ task => ∀ t, r.task? task = some t → t.duty.waits = false
  | reply _ task _ => ∀ t, r.task? task = some t → t.duty.waits = true
  | create .. | begin .. | describe .. => True

def made (r : Registry) (spec : Spec) (task : TaskId) : Option Effect :=
  (r.task? task).bind fun t => t.duty.made r.limits spec task

variable {r : Registry}

theorem task?_step (h : r.Tidy) {e : Event} {t : TaskId} {task : Task} (hne : e.task? ≠ some t)
    (ht : (r.step e).1.task? t = some task)
    : r.task? t = some task ∨ r.nextTask ≤ t ∧ task.duty.isFirst = true := by
  have hevolves := evolves h e
  have hlt := hevolves.tidy.housed t task ht
  rcases exists_cell? (List.getElem?_eq_getElem hlt) with ⟨c', hc', -⟩
  have hduty : c'.duty t = some task.duty := by
    rw [← (cell?_eq_some.mp hc').2, duty?_eq_some, ht]
  cases hc : r.cell? task.slot with
  | none =>
    rcases hevolves.added task.slot c' hc hc' with ⟨spec, rfl⟩
    cases hduty
  | some c =>
    rw [hevolves.cell task.slot c hc] at hc'
    rw [← Option.some.inj hc'] at hduty
    cases c.duty_step r.limits r.nextTask task.slot e hne hduty with
    | inl hold => exact .inl (task?_of_duty hc hold)
    | inr hnew => exact .inr hnew

theorem slot_of_changes {r' : Registry} {slot : Slot} {c' : Cell} (hchanges : Changes r r' slot c')
    {task : TaskId} (hslot : (r.task? task).map Task.slot = some slot)
    {t : Task} (ht : r'.task? task = some t)
    : t.slot = slot := by
  apply Decidable.byContradiction
  intro hne
  have hlt := hchanges.tidy.housed task t ht
  rcases exists_cell? (List.getElem?_eq_getElem hlt) with ⟨c, hc, -⟩
  have hduty : c.duty task = some t.duty := by
    rw [← (cell?_eq_some.mp hc).2, duty?_eq_some, ht]
  rw [hchanges.others t.slot hne] at hc
  rw [task?_of_duty hc hduty] at hslot
  exact hne (Option.some.inj hslot)

theorem made_of_changes {r' : Registry} {slot : Slot} {c' : Cell} (hchanges : Changes r r' slot c')
    {task : TaskId} (hslot : (r.task? task).map Task.slot = some slot) (spec : Spec)
    : r'.made spec task = c'.made r.limits spec task := by
  unfold made Cell.made
  rw [← (cell?_eq_some.mp hchanges.cell).2, hchanges.limits]
  unfold duty?
  cases htask : r'.task? task with
  | none => rfl
  | some t => simp [slot_of_changes hchanges hslot htask]

theorem calls_step_of_cell (h : r.Tidy) {e : Event} (he : e.Timely r) {slot : Slot} {c : Cell}
    (hslot : e.slot? r = some slot) (hc : r.cell? slot = some c)
    : ∃ spec, (r.step e).2.filter Effect.isCall = (e.task?.bind ((r.step e).1.made spec)).toList := by
  have hchanges := changes_step h hc hslot
  have hduty : ∀ task d, c.duty task = some d → r.task? task = some ⟨slot, d⟩ :=
    fun _ _ hd => task?_of_duty hc hd
  rw [hchanges.2]
  cases htask : e.task? with
  | none =>
    refine ⟨c.box.spec, ?_⟩
    cases e with
    | create request now clock chance => cases hslot
    | begin s op =>
      simp only [Cell.step]
      split <;> rfl
    | describe s record reading =>
      simp only [Cell.step]
      split <;> rfl
    | _ => cases htask
  | some task =>
    have hrests (hrests : c.Rests slot e) : c.duty task = none := by
      rw [Option.eq_none_iff_forall_ne_some]
      intro d hd
      cases hrests with
      | turn waits =>
        cases htask
        exact absurd (waits d hd) (by simp [he _ (hduty task d hd)])
      | reply idle =>
        cases htask
        exact absurd (he _ (hduty task d hd)) (by simp [idle d hd])
      | _ => cases htask
    rcases Cell.calls_step htask hrests r.limits r.nextTask with ⟨spec, hcalls⟩
    refine ⟨spec, hcalls.trans ?_⟩
    have hown : (r.task? task).map Task.slot = some slot := by
      cases e <;> cases htask <;> exact hslot
    rw [Option.bind_some, made_of_changes hchanges.1 hown]

-- An event that is about no box that was created has a task that is not there, if it has one.
theorem calls_step_out (h : r.Tidy) {e : Event} (hout : ∀ slot, e.slot? r = some slot → r.boxes[slot]? = none)
    : (r.step e).2.filter Effect.isCall = (e.task?.bind ((r.step e).1.made default)).toList := by
  have hnone : ∀ task, (r.task? task).map Task.slot = e.slot? r → r.made default task = none := by
    intro task heq
    unfold made
    cases htask : r.task? task with
    | none => rfl
    | some t =>
      rw [htask] at heq
      have hge := List.getElem?_eq_none_iff.mp (hout t.slot heq.symm)
      exact absurd (h.housed task t htask) (Nat.not_lt.mpr hge)
  have hcases := step_of_slot?_out hout
  cases e with
  | create request now clock chance =>
    simp only [step, Event.task?]
    split <;> rfl
  | turn now task =>
    rcases hcases with heq | ⟨_, _, _, _, heq⟩
    . rw [heq]
      simp [Event.task?, hnone task rfl]
    . cases heq
  | reply now task reply =>
    rcases hcases with heq | ⟨_, _, _, _, heq⟩
    . rw [heq]
      simp [Event.task?, hnone task rfl]
    . cases heq
  | begin s op =>
    rcases hcases with heq | ⟨_, _, _, _, heq⟩
    . rw [heq]
      rfl
    . cases heq
  | describe s record reading => rfl

theorem calls_step (h : r.Tidy) {e : Event} (he : e.Timely r)
    : ∃ spec, (r.step e).2.filter Effect.isCall = (e.task?.bind ((r.step e).1.made spec)).toList := by
  rcases r.slot?_cases e with ⟨slot, c, hslot, hc⟩ | hout
  . exact calls_step_of_cell h he hslot hc
  . exact ⟨default, calls_step_out h hout⟩

end Registry

end BoxRegistry
