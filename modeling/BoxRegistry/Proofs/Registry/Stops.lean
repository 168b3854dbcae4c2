import BoxRegistry.Proofs.Registry.Process

namespace BoxRegistry

open Time (Moment Span)

def Duty.op? : Duty → Option Operation
  | enter op | work op _ => some op
  | post _ | watch _ | notice .. => none

theorem Duty.isVigil_of_op? {d : Duty} {op : Operation} (h : d.op? = some op) : d.isVigil = false := by
  cases d <;> first | rfl | cases h

namespace Cell

variable {c : Cell} {limits : Limits} {task fresh : TaskId}

theorem op_step (c : Cell) (limits : Limits) (fresh : TaskId) (slot : Slot) (e : Registry.Event)
    {t : TaskId} {d : Duty} {op : Operation} (h : (c.step limits fresh slot e).1.duty t = some d)
    (hop : d.op? = some op)
    : (∃ d', c.duty t = some d' ∧ d'.op? = some op) ∨ e = .begin slot op := by
  by_cases ht : e.task? = some t
  . rcases goesOn_step ht h with ⟨d', hduty, hgoes⟩
    refine .inl ⟨d', hduty, ?_⟩
    cases hgoes with
    | stays e d => exact hop
    | enters next => exact hop
    | proceeds next => exact hop
    | posts pid => cases hop
    | learns whole => cases hop
  . rcases c.duty_step_cases limits fresh slot e ht h with hold | ⟨-, ⟨pid, rfl⟩ | ⟨op', rfl, rfl⟩⟩
    . exact .inl ⟨d, hold, hop⟩
    . cases hop
    . cases hop
      exact .inr rfl

section Settled

variable {t : TaskId} {result : Except Fault Unit}

theorem not_settled_performAll (c : Cell) (fresh : TaskId) (deeds : List Deed) (t : TaskId)
    (result : Except Fault Unit)
    : Effect.settled t result ∉ (c.performAll fresh deeds).2 := by
  induction deeds generalizing c fresh with
  | nil => simp [performAll]
  | cons deed deeds ih =>
    simp only [performAll, List.mem_append, not_or]
    refine ⟨?_, ih _ _⟩
    cases deed <;> simp [Deed.effects]

theorem not_settled_leave (c : Cell) (task : TaskId) : Effect.settled t result ∉ (c.leave task).2 := by
  simp [leave]

theorem duty_leave_self (c : Cell) (task : TaskId) : (c.leave task).1.duty task = none := by
  simp [leave, dropTask]

theorem settled_apply {op : Operation} {m : Move} (h : .settled t result ∈ (c.apply limits fresh task op m).2)
    : t = task ∧ (c.apply limits fresh task op m).1.duty t = none := by
  have happlies := c.applies limits fresh task op m
  have hdeeds := not_settled_performAll { c with box := m.box } fresh m.deeds t result
  generalize c.apply limits fresh task op m = out at happlies h ⊢
  cases happlies with
  | waits next =>
    simp only [List.mem_append, List.mem_singleton, reduceCtorEq, or_false] at h
    exact absurd h hdeeds
  | leaves result' quits =>
    simp only [List.mem_append, List.mem_singleton, Effect.settled.injEq] at h
    rcases h with (h | h) | ⟨rfl, -⟩
    . exact absurd h hdeeds
    . exact absurd h (not_settled_leave _ task)
    . exact ⟨rfl, duty_leave_self _ t⟩

theorem not_settled_notice (c : Cell) (fresh : TaskId) (now : Moment) (task : TaskId) (pid : Pid)
    (result' : Except Fault ProcessEnd)
    : Effect.settled t result ∉ (c.notice fresh now task pid result').2 := by
  unfold notice
  dsimp only
  rw [List.mem_append, not_or]
  exact ⟨not_settled_performAll _ _ _ _ _, not_settled_leave _ _⟩

theorem settled_step {slot : Slot} {e : Registry.Event} (h : .settled t result ∈ (c.step limits fresh slot e).2)
    : e.task? = some t ∧ (c.step limits fresh slot e).1.duty t = none := by
  have hsteps := c.steps limits fresh slot e
  generalize c.step limits fresh slot e = out at hsteps h ⊢
  cases hsteps with
  | enters duty claimed =>
    rcases settled_apply h with ⟨rfl, hnone⟩
    exact ⟨rfl, hnone⟩
  | proceeds duty =>
    rcases settled_apply h with ⟨rfl, hnone⟩
    exact ⟨rfl, hnone⟩
  | reports arrives claimed => exact absurd h (not_settled_notice _ _ _ _ _ _)
  | _ => simp at h

end Settled

section Forward

variable {t : TaskId} {d : Duty}

theorem kept_leave (hd : c.duty t = some d) (hne : t ≠ task) : (c.leave task).1.duty t = some d := by
  simp [leave, dropTask, hne, hd]

theorem kept_apply (hd : c.duty t = some d) (hvigil : d.isVigil = false) (hlt : t < fresh) (hne : t ≠ task)
    (op : Operation) (m : Move)
    : (c.apply limits fresh task op m).1.duty t = some d := by
  have hdeeds := Registry.Cell.duty_performAll (c := { c with box := m.box }) hd hvigil hlt m.deeds
  have happlies := c.applies limits fresh task op m
  generalize c.apply limits fresh task op m = out at happlies ⊢
  cases happlies with
  | waits next =>
    dsimp only
    rw [duty_assign, if_neg hne]
    exact hdeeds
  | leaves result quits => exact kept_leave hdeeds hne

theorem kept_step (hd : c.duty t = some d) (hvigil : d.isVigil = false) (hlt : t < fresh) (slot : Slot)
    {e : Registry.Event} (he : e.task? ≠ some t)
    : (c.step limits fresh slot e).1.duty t = some d := by
  have hother : ∀ task, e.task? = some task → t ≠ task := by
    rintro task htask rfl
    exact he htask
  have hassign : ∀ {task d'}, t ≠ task → (c.assign task d').duty t = some d :=
    fun hne => duty_assign_eq_some.mpr (.inr ⟨hne, hd⟩)
  have hsteps := c.steps limits fresh slot e
  generalize c.step limits fresh slot e = out at hsteps
  cases hsteps with
  | rests rests => exact hd
  | begins op => exact hassign (Nat.ne_of_lt hlt)
  | posts duty => exact hassign (hother _ rfl)
  | queues arrives unclaimed => exact hassign (hother _ arrives.task?_eq)
  | @enters now task op duty claimed =>
    exact kept_apply (c := { c with box := (c.box.claim task).2 }) hd hvigil hlt (hother _ rfl) op _
  | proceeds duty => exact kept_apply hd hvigil hlt (hother _ rfl) _ _
  | @reports e now task pid result arrives claimed =>
    have hne := hother _ arrives.task?_eq
    have hdeeds := fun b deeds => Registry.Cell.duty_performAll (c := { c.assign task (.notice pid result) with box := b })
      (hassign hne) hvigil hlt deeds
    exact kept_leave (hdeeds _ _) hne
  | quits duty => simp [dropTask, hother _ rfl, hd]
  | samples sampled => exact hd

theorem Sound.work_aside (h : c.Sound) (hbelow : c.Below fresh) {op : Operation} {stage : Stage}
    (hduty : c.duty task = some (.work op stage)) (limits : Limits) (slot : Slot) {e : Registry.Event}
    (he : ∀ now reply, e ≠ .reply now task reply)
    : (c.step limits fresh slot e).1.duty task = some (.work op stage) ∧
      c.box.Untouched (c.step limits fresh slot e).1.box := by
  by_cases htask : e.task? = some task
  . -- The turn of a task that waits for an answer changes nothing.
    have hsame : c.step limits fresh slot e = (c, []) := by
      cases e with
      | turn now t =>
        obtain rfl := Option.some.inj htask
        exact step_turn_work hduty limits fresh slot now
      | reply now t reply =>
        obtain rfl := Option.some.inj htask
        exact absurd rfl (he now reply)
      | _ => cases htask
    rw [hsame]
    exact ⟨hduty, .refl c.box⟩
  . have hidle : ¬e.Acts c.box := by
      rintro ⟨t, ht, hclaim⟩
      rw [Box.claim_eq_true_iff, h.worker task _ _ hduty] at hclaim
      rcases hclaim with hfree | hown
      . cases hfree
      . rw [Option.some.inj hown] at htask
        exact htask ht
    exact ⟨kept_step hduty rfl (hbelow.duty task _ hduty) slot htask, (h.untouched_step hidle limits fresh slot).1⟩

inductive Quits (c : Cell) (task : TaskId) (pid : Pid) : Registry.Event → Prop where
  | parted {now : Moment} {op : Operation} {how : ProcessEnd} (duty : c.duty task = some (.work op (.parting pid))) :
    Quits c task pid (.reply now task (.ended how))
  | killed {now : Moment} {op : Operation} {reply : Reply} (duty : c.duty task = some (.work op (.killing pid))) :
    Quits c task pid (.reply now task reply)
  | confirmed {now : Moment} {op : Operation} {reply : Reply}
    (duty : c.duty task = some (.work op (.confirming pid))) : Quits c task pid (.reply now task reply)

theorem wait_enter_stop {b : Box} {pid : Pid} (h : b.Runs pid) (grace : Span)
    : ∃ stage, ((Operation.stop grace).enter b).next = .wait stage := by
  have happly : b.record.status.apply .stop = .ok .stopped := Status.apply_stop_eq_ok.mpr ⟨h.active, rfl⟩
  simp only [Operation.enter, h.listed, Bool.false_eq_true, if_false, Box.beginStop, Box.withProcess, happly,
    Box.process, h.pid]
  split <;> exact ⟨_, rfl⟩

theorem Sound.stop_proceed (h : c.Sound) {pid : Pid} (hruns : c.box.Runs pid) {grace : Span} {stage : Stage}
    (hd : c.duty t = some (.work (.stop grace) stage)) (now : Moment) {reply : Reply}
    (hwhole : ∀ message, reply ≠ .panicked message)
    : (∃ stage', (Operation.proceed (.stop grace) limits now c.box stage reply).next = .wait stage') ∨
      c.Quits t pid (.reply now t reply) := by
  have hfits := h.fits t _ _ hd
  have hpid : ∀ pid', c.box.Runs pid' → pid' = pid := fun pid' hruns' => hruns.eq hruns'
  have hproceeds := Operation.proceeds (.stop grace) limits now c.box stage reply
  generalize Operation.proceed (.stop grace) limits now c.box stage reply = m at hproceeds ⊢
  cases hproceeds with
  | launched pid' => cases hfits.1
  | unlaunched failed => cases hfits.1
  | breaksOff message calm => exact absurd rfl (hwhole message)
  | @eased pid' grace' reply whole => cases grace' <;> exact .inl ⟨_, rfl⟩
  | parted how =>
    obtain rfl := hpid _ hfits.2.1
    exact .inr (.parted hd)
  | unkilled f =>
    obtain rfl := hpid _ hfits.2.1
    exact .inr (.killed hd)
  | confirmed how =>
    obtain rfl := hpid _ hfits.2.1
    exact .inr (.confirmed hd)
  | presumed whole unknown =>
    obtain rfl := hpid _ hfits.2.1
    exact .inr (.confirmed hd)
  | unturned f turns => rcases turns with ⟨pid', rfl | rfl⟩ <;> cases hfits.1
  | paused whole done => cases hfits.1
  | resumed whole done => cases hfits.1
  | _ => exact .inl ⟨_, rfl⟩

theorem Sound.stop_step (h : c.Sound) (hbelow : c.Below fresh) {pid : Pid} (hruns : c.box.Runs pid)
    (hd : c.duty t = some d) {grace : Span} (hop : d.op? = some (.stop grace)) (slot : Slot)
    {e : Registry.Event} (hwhole : ∀ now message, e ≠ .reply now t (.panicked message))
    : (∃ d', (c.step limits fresh slot e).1.duty t = some d' ∧ d'.op? = some (.stop grace)) ∨ c.Quits t pid e := by
  have hlt := hbelow.duty t d hd
  -- No event of another task changes what this one is there for.
  by_cases ht : e.task? = some t
  . cases e with
    | turn now task =>
      cases ht
      refine .inl ?_
      simp only [Cell.step, Cell.turn, hd]
      cases d with
      | enter op =>
        cases hop
        dsimp only
        cases hclaim : (c.box.claim t).1 with
        | true =>
          rw [withBox_held hclaim]
          have huntouched := c.box.untouched_claim t
          rcases wait_enter_stop (hruns.congr huntouched.record huntouched.removed) grace with ⟨stage, hnext⟩
          exact ⟨_, duty_apply_wait _ limits fresh t _ hnext, rfl⟩
        | false =>
          rw [withBox_aside hclaim]
          exact ⟨_, hd, rfl⟩
      | work op stage => exact ⟨_, hd, hop⟩
      | post pid => cases hop
      | watch pid => cases hop
      | notice pid result => cases hop
    | reply now task reply =>
      cases ht
      simp only [Cell.step, Cell.reply, hd]
      cases d with
      | enter op => exact .inl ⟨_, hd, hop⟩
      | work op stage =>
        cases hop
        have hreply : ∀ message, reply ≠ .panicked message := by
          rintro message rfl
          exact hwhole now message rfl
        rcases h.stop_proceed hruns hd now hreply with ⟨stage', hnext⟩ | hquits
        . exact .inl ⟨_, c.duty_apply_wait _ _ _ _ hnext, rfl⟩
        . exact .inr hquits
      | post pid => cases hop
      | watch pid => cases hop
      | notice pid result => cases hop
    | _ => cases ht
  . exact .inl ⟨d, kept_step hd (Duty.isVigil_of_op? hop) hlt slot ht, hop⟩

end Forward

end Cell

namespace Registry

variable {r : Registry}

theorem task?_of_settled (h : r.Tidy) {e : Event} {t : TaskId} {result : Except Fault Unit}
    (hsettled : .settled t result ∈ (r.step e).2)
    : (r.step e).1.task? t = none := by
  rcases r.slot?_cases e with ⟨slot, c, hslot, hc⟩ | hout
  . have hchanges := changes_step h hc hslot
    rw [hchanges.2] at hsettled
    rcases Cell.settled_step hsettled with ⟨htask, hnone⟩
    have hown : (r.task? t).map Task.slot = some slot := by
      cases e with
      | turn now task => rwa [← Option.some.inj htask]
      | reply now task reply => rwa [← Option.some.inj htask]
      | _ => cases htask
    rw [Option.eq_none_iff_forall_ne_some]
    intro task ht
    have hat : task.slot = slot := slot_of_changes hchanges.1 hown ht
    have hduty : (r.step e).1.duty? slot t = some task.duty := by
      rw [duty?_eq_some, ht, ← hat]
    rw [(cell?_eq_some.mp hchanges.1.cell).2, hnone] at hduty
    cases hduty
  . rcases step_of_slot?_out hout with heq | ⟨request, now, clock, chance, rfl⟩
    . rw [heq] at hsettled
      cases hsettled
    . simp only [step] at hsettled
      split at hsettled <;> cases hsettled

theorem gone_of_results (h : r.Tidy) {e : Event} {t : TaskId} {result : Except Fault Unit}
    (hresults : (r.step e).2.filterMap Effect.result? = [(t, result)])
    : (r.step e).1.task? t = none := by
  have hmem : (t, result) ∈ (r.step e).2.filterMap Effect.result? := by simp [hresults]
  rcases List.mem_filterMap.mp hmem with ⟨effect, heffect, hresult⟩
  cases effect with
  | settled t' result' =>
    cases hresult
    exact task?_of_settled h heffect
  | _ => cases hresult

end Registry

end BoxRegistry
