import BoxRegistry.Proofs.Registry.Serial

namespace BoxRegistry

open Time (Moment)

def Effect.isLaunch : Effect → Bool
  | call _ (.launch _) _ => true
  | _ => false

def Duty.starts : Duty → Bool
  | enter .start | work .start _ => true
  | _ => false

theorem Stage.Fits.status_ne_created {op : Operation} {b : Box} {stage : Stage} (h : stage.Fits op b)
    (hstage : stage ≠ .launching)
    : b.record.status ≠ .created := by
  intro hstatus
  cases stage with
  | launching => exact hstage rfl
  | pausing pid =>
    rw [h.2.1] at hstatus
    cases hstatus
  | resuming pid =>
    rw [h.2.1] at hstatus
    cases hstatus
  | _ =>
    have hactive := h.2.1.active
    rw [hstatus] at hactive
    cases hactive

namespace Operation.Moves

variable {op : Operation} {b : Box} {origin : Option Stage} {m : Move}

theorem created_of_launching (h : op.Moves b origin m) (hnext : m.next = .wait .launching)
    : origin = none ∧ b.record.status = .created := by
  cases h with
  | @set stage free fits =>
    cases hnext
    exact ⟨rfl, fits.2.1⟩
  | beginStop stage stops fits =>
    cases hnext
    cases stops
  | press stops fits =>
    cases hnext
    cases stops
  | _ => cases hnext

theorem created_of_created (h : op.Moves b origin m) (hfits : ∀ stage, origin = some stage → stage.Fits op b)
    (hstatus : m.box.record.status = .created)
    : origin = none ∧ b.record.status = .created := by
  have horigin : ∀ stage, origin = some stage → stage ≠ .launching → b.record.status ≠ .created :=
    fun stage horigin hstage => (hfits stage horigin).status_ne_created hstage
  cases h with
  | refuse f turns =>
    cases origin with
    | none => exact ⟨rfl, hstatus⟩
    | some stage =>
      rcases turns stage rfl with ⟨pid, rfl | rfl⟩
      . exact absurd hstatus (horigin _ rfl (by simp))
      . exact absurd hstatus (horigin _ rfl (by simp))
  | crash message calm => exact absurd hstatus (horigin _ rfl calm)
  | set free fits => exact ⟨rfl, hstatus⟩
  | beginStop stage stops fits => exact ⟨rfl, hstatus⟩
  | @press origin stage stops fits =>
    have hstage : stage ≠ .launching := by
      rintro rfl
      cases stops
    exact absurd hstatus (fits.status_ne_created hstage)
  | @launch record pid start created listed running process =>
    rw [show record.status = .created from hstatus] at running
    cases running
  | @failLaunch record message start created listed failed process =>
    rw [show record.status = .created from hstatus] at failed
    cases failed
  | @turnOver record pid origin runs active process turns =>
    rw [show record.status = .created from hstatus] at active
    cases active
  | @stop record pid grace origin stops runs unwatched stopped process ends =>
    rw [show record.status = .created from hstatus] at stopped
    cases stopped
  | @stopAndRemove record pid origin removes runs unwatched stopped process ends =>
    rw [show record.status = .created from hstatus] at stopped
    cases stopped
  | rearm f stops runs unwatched => exact absurd hstatus (horigin _ rfl (by simp))
  | remove removes inactive listed => exact ⟨rfl, hstatus⟩

theorem created_of_started (h : op.Moves b origin m) (hop : op = .start) (hnext : m.next = .finish (.ok ()))
    : b.record.status = .created ∧ m.box.record.status ≠ .created := by
  cases h with
  | @launch record pid start created listed running process =>
    refine ⟨created, ?_⟩
    dsimp only
    rw [running]
    simp
  | turnOver runs active process turns =>
    rcases turns with ⟨hturns, -⟩ | ⟨hturns, -⟩
    . rw [hop] at hturns
      cases hturns
    . rw [hop] at hturns
      cases hturns
  | stop stops runs unwatched stopped process ends =>
    rw [hop] at stops
    cases stops
  | stopAndRemove removes runs unwatched stopped process ends =>
    rw [hop] at removes
    cases removes
  | remove removes inactive listed =>
    rw [hop] at removes
    cases removes
  | _ => cases hnext

theorem record_or_live (h : op.Moves b origin m)
    : m.box.record = b.record ∨ b.record.status.isTerminal = false := by
  cases h with
  | launch start created listed running process => exact .inr (by rw [created]; rfl)
  | failLaunch start created listed failed process => exact .inr (by rw [created]; rfl)
  | turnOver runs active process turns => exact .inr (Status.isTerminal_of_isActive runs.active)
  | stop stops runs unwatched stopped process ends => exact .inr (Status.isTerminal_of_isActive runs.active)
  | stopAndRemove removes runs unwatched stopped process ends =>
    exact .inr (Status.isTerminal_of_isActive runs.active)
  | _ => exact .inl rfl

end Operation.Moves

namespace Cell

def isStart (duty : TaskId → Option Duty) : Effect → Bool
  | .settled task (.ok ()) => (duty task).any Duty.starts
  | _ => false

def ends (b b' : Box) : Nat :=
  if b'.record ≠ b.record ∧ b'.record.status.isTerminal = true then 1 else 0

structure Tally (c : Cell) (launches starts ended : Nat) : Prop where
  launched : launches ≤ 1
  unlaunched : c.box.record.status = .created →
    launches = 0 ∨ ∃ t op, c.duty t = some (.work op .launching)
  started : starts ≤ 1
  unstarted : c.box.record.status = .created → starts = 0
  terminal : ended = if c.box.record.status.isTerminal then 1 else 0

theorem tally_new (spec : Spec) : Tally ⟨.new spec, fun _ => none⟩ 0 0 0 where
  launched := Nat.zero_le 1
  unlaunched _ := .inl rfl
  started := Nat.zero_le 1
  unstarted _ := rfl
  terminal := rfl

variable {c : Cell} {launches starts ended : Nat}

section Effects

variable (c : Cell) (limits : Limits) (fresh task : TaskId)

theorem countP_performAll (deeds : List Deed) {p : Effect → Bool} (hwake : ∀ t, p (.wake t) = false)
    (hrelease : ∀ pid, p (.release pid) = false)
    : (c.performAll fresh deeds).2.countP p = 0 := by
  induction deeds generalizing c fresh with
  | nil => rfl
  | cons deed deeds ih =>
    simp only [performAll, List.countP_append, ih, Nat.add_zero]
    cases deed <;> simp [Deed.effects, hwake, hrelease]

theorem countP_leave {p : Effect → Bool} (hwake : ∀ t, p (.wake t) = false)
    : (c.leave task).2.countP p = 0 := by
  simp only [leave]
  cases c.box.handOver.holder <;> simp [hwake]

theorem countP_notice (now : Moment) (pid : Pid) (result : Except Fault ProcessEnd) {p : Effect → Bool}
    (hwake : ∀ t, p (.wake t) = false) (hrelease : ∀ pid, p (.release pid) = false)
    : (c.notice fresh now task pid result).2.countP p = 0 := by
  simp [notice, List.countP_append, countP_performAll _ _ _ hwake hrelease, countP_leave _ _ hwake]

theorem launches_apply (op : Operation) (m : Move)
    : (c.apply limits fresh task op m).2.countP Effect.isLaunch =
      match m.next with | .wait .launching => 1 | _ => 0 := by
  have hdeeds := fun c => countP_performAll c fresh m.deeds (p := Effect.isLaunch) (fun _ => rfl) (fun _ => rfl)
  have hleave := fun c => countP_leave c task (p := Effect.isLaunch) (fun _ => rfl)
  unfold apply
  dsimp only
  cases m.next with
  | wait stage => cases stage <;> simp [hdeeds, Effect.isLaunch, Stage.call]
  | finish result => simp [hdeeds, hleave, Effect.isLaunch]
  | crash message => simp [hdeeds, hleave, Effect.isLaunch]

theorem starts_apply (op : Operation) (m : Move) (duty : TaskId → Option Duty)
    : (c.apply limits fresh task op m).2.countP (isStart duty) =
      match m.next with
      | .finish (.ok ()) => if (duty task).any Duty.starts then 1 else 0
      | _ => 0 := by
  have hdeeds := fun c => countP_performAll c fresh m.deeds (p := isStart duty) (fun _ => rfl) (fun _ => rfl)
  have hleave := fun c => countP_leave c task (p := isStart duty) (fun _ => rfl)
  unfold apply
  dsimp only
  cases m.next with
  | wait stage => simp [hdeeds, isStart]
  | finish result =>
    cases result with
    | ok u =>
      cases h : (duty task).any Duty.starts <;> simp [hdeeds, hleave, isStart, h]
    | error f => simp [hdeeds, hleave, isStart]
  | crash message => simp [hdeeds, hleave, isStart]

theorem launches_apply_cases (op : Operation) (m : Move)
    : (c.apply limits fresh task op m).2.countP Effect.isLaunch = 0 ∨
      (c.apply limits fresh task op m).2.countP Effect.isLaunch = 1 ∧ m.next = .wait .launching := by
  rw [launches_apply]
  split
  . next hnext => exact .inr ⟨rfl, hnext⟩
  . exact .inl rfl

theorem starts_apply_cases (op : Operation) (m : Move) (duty : TaskId → Option Duty)
    : (c.apply limits fresh task op m).2.countP (isStart duty) = 0 ∨
      (c.apply limits fresh task op m).2.countP (isStart duty) = 1 ∧
        (duty task).any Duty.starts = true ∧ m.next = .finish (.ok ()) := by
  rw [starts_apply]
  split
  . next hnext =>
    split
    . next hstarts => exact .inr ⟨rfl, hstarts, hnext⟩
    . exact .inl rfl
  . exact .inl rfl

end Effects

theorem Tally.add (h : c.Tally launches starts ended) {c' : Cell} {launches' starts' : Nat}
    (hlaunch : launches' = 0 ∨ launches' = 1 ∧ launches = 0)
    (hcreated : c'.box.record.status = .created → c.box.record.status = .created ∧ starts' = 0 ∧
      (launches + launches' = 0 ∨ ∃ t op, c'.duty t = some (.work op .launching)))
    (hstart : starts' = 0 ∨ starts' = 1 ∧ c.box.record.status = .created)
    (hend : c'.box.record = c.box.record ∨ c.box.record.status.isTerminal = false)
    : c'.Tally (launches + launches') (starts + starts') (ended + ends c.box c'.box) where
  launched := by
    have := h.launched
    omega
  unlaunched hstatus := (hcreated hstatus).2.2
  started := by
    rcases hstart with hzero | ⟨hone, hstatus⟩
    . have := h.started
      omega
    . have := h.unstarted hstatus
      omega
  unstarted hstatus := by
    rcases hcreated hstatus with ⟨hold, hzero, -⟩
    have := h.unstarted hold
    omega
  terminal := by
    have hended := h.terminal
    rcases hend with heq | hlive
    . simp [ends, heq, hended]
    . simp only [hlive, Bool.false_eq_true, if_false] at hended
      rw [hended, Nat.zero_add]
      by_cases hterminal : c'.box.record.status.isTerminal = true
      . have hne : c'.box.record ≠ c.box.record := by
          intro heq
          rw [heq, hlive] at hterminal
          cases hterminal
        simp [ends, hne, hterminal]
      . simp [ends, hterminal]

theorem Tally.aside (h : c.Tally launches starts ended) (c' : Cell) (hrecord : c'.box.record = c.box.record)
    (hwork : ∀ t op stage, c.duty t = some (.work op stage) → c'.duty t = some (.work op stage))
    : c'.Tally launches starts (ended + ends c.box c'.box) := by
  have hcreated : c'.box.record.status = .created → c.box.record.status = .created ∧ 0 = 0 ∧
      (launches + 0 = 0 ∨ ∃ t op, c'.duty t = some (.work op .launching)) := by
    rw [hrecord]
    intro hstatus
    refine ⟨hstatus, rfl, ?_⟩
    cases h.unlaunched hstatus with
    | inl hzero => exact .inl hzero
    | inr hlaunching =>
      rcases hlaunching with ⟨t, op, ht⟩
      exact .inr ⟨t, op, hwork t op .launching ht⟩
  exact h.add (.inl rfl) hcreated (.inl rfl) (.inl hrecord)

theorem Tally.assign (h : c.Tally launches starts ended) {task : TaskId}
    (hidle : ∀ op stage, c.duty task ≠ some (.work op stage)) (d : Duty)
    : (c.assign task d).Tally launches starts (ended + ends c.box (c.assign task d).box) := by
  apply h.aside (c.assign task d) rfl
  intro t op stage ht
  have hne : t ≠ task := by
    rintro rfl
    exact hidle op stage ht
  simp [duty_assign, hne, ht]

theorem Tally.dropTask (h : c.Tally launches starts ended) {task : TaskId}
    (hidle : ∀ op stage, c.duty task ≠ some (.work op stage))
    : (c.dropTask task).Tally launches starts (ended + ends c.box (c.dropTask task).box) := by
  apply h.aside (c.dropTask task) rfl
  intro t op stage ht
  have hne : t ≠ task := by
    rintro rfl
    exact hidle op stage ht
  simp [Cell.dropTask, hne, ht]

theorem Tally.later (h : c.Tally launches starts ended) {c' : Cell} {launches' starts' : Nat}
    (hstatus : c'.box.record.status ≠ .created) (hlaunches : launches' = 0) (hstarts : starts' = 0)
    (hend : c'.box.record = c.box.record ∨ c.box.record.status.isTerminal = false)
    : c'.Tally (launches + launches') (starts + starts') (ended + ends c.box c'.box) :=
  h.add (.inl hlaunches) (fun hcreated => absurd hcreated hstatus) (.inl hstarts) hend

theorem Tally.apply (h : c.Tally launches starts ended) {c₁ : Cell} (hrecord : c₁.box.record = c.box.record)
    {task : TaskId} {op : Operation} (hop : (c.duty task).any Duty.starts = true → op = .start)
    {origin : Option Stage} {m : Move} (hm : op.Moves c₁.box origin m)
    (hfits : ∀ stage, origin = some stage → stage.Fits op c₁.box)
    (hfresh : origin = none → c.box.record.status = .created → launches = 0) (limits : Limits) (fresh : TaskId)
    : (c₁.apply limits fresh task op m).1.Tally
      (launches + (c₁.apply limits fresh task op m).2.countP Effect.isLaunch)
      (starts + (c₁.apply limits fresh task op m).2.countP (isStart c.duty))
      (ended + ends c.box (c₁.apply limits fresh task op m).1.box) := by
  have hbox := (box_apply c₁ limits fresh task op m).2.1
  -- The launch is counted when the call is posted, and the task that waits for it stands for it until then.
  have hlaunch := launches_apply_cases c₁ limits fresh task op m
  have hstart := starts_apply_cases c₁ limits fresh task op m c.duty
  apply h.add
  . cases hlaunch with
    | inl hzero => exact .inl hzero
    | inr hone =>
      rcases hm.created_of_launching hone.2 with ⟨horigin, hcreated⟩
      rw [hrecord] at hcreated
      exact .inr ⟨hone.1, hfresh horigin hcreated⟩
  . rw [hbox]
    intro hstatus
    rcases hm.created_of_created hfits hstatus with ⟨horigin, hcreated⟩
    rw [hrecord] at hcreated
    refine ⟨hcreated, ?_, ?_⟩
    . cases hstart with
      | inl hzero => exact hzero
      | inr hone =>
        have hstarted := hm.created_of_started (hop hone.2.1) hone.2.2
        exact absurd hstatus hstarted.2
    . have hnone := hfresh horigin hcreated
      cases hlaunch with
      | inl hzero => exact .inl (by rw [hnone, hzero])
      | inr hone => exact .inr ⟨task, op, duty_apply_wait c₁ limits fresh task op hone.2⟩
  . cases hstart with
    | inl hzero => exact .inl hzero
    | inr hone =>
      have hstarted := hm.created_of_started (hop hone.2.1) hone.2.2
      rw [hrecord] at hstarted
      exact .inr ⟨hone.1, hstarted.1⟩
  . rw [hbox, ← hrecord]
    exact hm.record_or_live

section Steps

variable {task fresh : TaskId}

theorem Tally.unlaunched_of_claim (h : c.Tally launches starts ended) (hsound : c.Sound) {op : Operation}
    (hduty : c.duty task = some (.enter op)) (hclaim : (c.box.claim task).1 = true)
    (hstatus : c.box.record.status = .created)
    : launches = 0 := by
  rcases h.unlaunched hstatus with hzero | ⟨t, op', ht⟩
  . exact hzero
  . exact absurd ht (hsound.toOrderly.idle_of_claim hclaim (by simp [hduty]) t op' .launching)

theorem Tally.notice (h : c.Tally launches starts ended) {c₁ : Cell} (hrecord : c₁.box.record = c.box.record)
    (horderly : c₁.Orderly) (hidle : ∀ t op stage, c.duty t ≠ some (.work op stage)) (fresh : TaskId)
    (now : Moment) (task : TaskId) (pid : Pid) (result : Except Fault ProcessEnd)
    : (c₁.notice fresh now task pid result).1.Tally
      (launches + (c₁.notice fresh now task pid result).2.countP Effect.isLaunch)
      (starts + (c₁.notice fresh now task pid result).2.countP (isStart c.duty))
      (ended + ends c.box (c₁.notice fresh now task pid result).1.box) := by
  have hcases := Box.notices horderly.coherent now task pid result
  have hbox := (box_notice c₁ fresh now task pid result).2.1
  rw [countP_notice _ _ _ _ _ _ (fun _ => rfl) (fun _ => rfl),
    countP_notice _ _ _ _ _ _ (fun _ => rfl) (fun _ => rfl)]
  generalize c₁.box.noticeEnd now task pid result = out at hcases hbox
  cases hcases with
  | ignore other =>
    apply h.aside _ (by rw [hbox, hrecord])
    intro t op stage ht
    exact absurd ht (hidle t op stage)
  | @record record watched runs marked ended process =>
    have hactive : c.box.record.status.isActive = true := by
      rw [← hrecord]
      exact runs.active
    apply h.later ?_ rfl rfl (.inr (Status.isTerminal_of_isActive hactive))
    rw [hbox]
    intro hstatus
    rw [show record.status = .created from hstatus] at ended
    cases ended

theorem Tally.step (h : c.Tally launches starts ended) (hsound : c.Sound) (limits : Limits)
    (fresh : TaskId) (hfresh : c.duty fresh = none) (slot : Slot) (e : Registry.Event)
    : let out := c.step limits fresh slot e
      out.1.Tally (launches + out.2.countP Effect.isLaunch) (starts + out.2.countP (isStart c.duty))
        (ended + ends c.box out.1.box) := by
  have hsteps := c.steps limits fresh slot e
  dsimp only
  generalize c.step limits fresh slot e = out at hsteps
  cases hsteps with
  | rests rests => exact h.aside c rfl fun _ _ _ ht => ht
  | begins op => exact h.assign (by simp [hfresh]) (.enter op)
  | @posts now task pid duty => exact h.assign (by simp [duty]) (.watch pid)
  | @queues e now task d arrives unclaimed =>
    apply h.aside _ (c.box.untouched_claim task).record
    intro t op stage ht
    have hne : t ≠ task := by
      rintro rfl
      exact arrives.not_work_self op stage ht
    exact duty_assign_eq_some.mpr (.inr ⟨hne, ht⟩)
  | @enters now task op duty claimed =>
    apply h.apply (c.box.untouched_claim task).record ?_ (op.moves_enter _) (by simp)
    . exact fun _ hstatus => h.unlaunched_of_claim hsound duty claimed hstatus
    . intro hstarts
      rw [duty] at hstarts
      cases op <;> first | rfl | contradiction
  | @proceeds now task reply op stage duty =>
    have hfits := hsound.fits task op stage duty
    apply h.apply rfl ?_ (op.moves_proceed hfits limits now reply) ?_ (by simp)
    . intro hstarts
      rw [duty] at hstarts
      cases op <;> first | rfl | contradiction
    . intro stage' hstage
      rw [← Option.some.inj hstage]
      exact hfits
  | @reports e now task pid result arrives claimed =>
    exact h.notice (c.box.untouched_claim task).record (hsound.claim_arrives arrives claimed).1
      (hsound.toOrderly.idle_of_claim claimed arrives.not_work_self) fresh now task pid result
  | quits duty => exact h.dropTask (by simp [duty])
  | @samples record reading sampled =>
    exact h.aside { c with box := { c.box with sample := reading <|> c.box.sample } } rfl fun _ _ _ ht => ht

end Steps

end Cell

namespace Registry

def launchesAt (slot : Slot) (r : Registry) (e : Event) : Nat :=
  (r.effectsAt slot e).countP Effect.isLaunch

def startsAt (slot : Slot) (r : Registry) (e : Event) : Nat :=
  (r.effectsAt slot e).countP (Cell.isStart (r.duty? slot))

def endsAt (slot : Slot) (r : Registry) (e : Event) : Nat :=
  match r.boxes[slot]?, (r.step e).1.boxes[slot]? with
  | some b, some b' => Cell.ends b b'
  | _, _ => 0

def total (count : Registry → Event → Nat) (r : Registry) : List Event → Nat
  | [] => 0
  | e :: es => count r e + (r.step e).1.total count es

def TallyAt (r : Registry) (slot : Slot) (launches starts ended : Nat) : Prop :=
  Tracked (fun _ c (counted : Nat × Nat × Nat) => c.Tally counted.1 counted.2.1 counted.2.2) (0, 0, 0) r slot
    (launches, starts, ended)

theorem tallyAt_start (limits : Limits) (slot : Slot) : TallyAt { limits } slot 0 0 0 :=
  tracked_start _ _ limits slot

theorem endsAt_of_none {r : Registry} {slot : Slot} (hc : r.cell? slot = none) (e : Event)
    : endsAt slot r e = 0 := by
  simp [endsAt, cell?_eq_none.mp hc]

theorem TallyAt.step {r : Registry} {slot : Slot} {launches starts ended : Nat}
    (h : r.TallyAt slot launches starts ended) (e : Event)
    : (r.step e).1.TallyAt slot (launches + launchesAt slot r e) (starts + startsAt slot r e)
      (ended + endsAt slot r e) := by
  apply Tracked.step h e Cell.tally_new
  . intro hc
    simp [launchesAt, startsAt, effectsAt_of_none hc, endsAt_of_none hc]
  . intro c hc hsound hbelow htally
    have hends : endsAt slot r e = Cell.ends c.box (c.step r.limits r.nextTask slot e).1.box := by
      simp only [endsAt, (cell?_eq_some.mp hc).1, (cell?_eq_some.mp ((evolves h.tidy e).cell slot c hc)).1]
    rw [hends]
    simp only [launchesAt, startsAt, effectsAt_eq h.tidy hc, (cell?_eq_some.mp hc).2]
    exact htally.step hsound r.limits r.nextTask hbelow.fresh slot e

theorem TallyAt.run {r : Registry} {slot : Slot} {launches starts ended : Nat}
    (h : r.TallyAt slot launches starts ended) (es : List Event)
    : (r.after es).TallyAt slot (launches + r.total (launchesAt slot) es) (starts + r.total (startsAt slot) es)
      (ended + r.total (endsAt slot) es) := by
  induction es generalizing r launches starts ended with
  | nil => exact h
  | cons e es ih =>
    simp only [after_cons, total, ← Nat.add_assoc]
    exact ih (h.step e)

/--
What tasks do with a box is as if one came after the other. No event of another task changes the box while a
task has hold of it; the box and the results of all operations on it are those of the stints, one after the
other in the order in which the tasks got hold of the box; and in the whole life of the box there is one
launch and one start that succeeds at most, and one end if it is over.
-/
theorem serialized (limits : Limits) (es : List Event) (slot : Slot)
    : (∀ b t e, (({ limits } : Registry).after es).boxes[slot]? = some b → b.holder = some t →
        e.task? ≠ some t →
        ∃ b', ((({ limits } : Registry).after es).step e).1.boxes[slot]? = some b' ∧ b.Untouched b' ∧
          b'.holder = some t) ∧
      (∀ b, (({ limits } : Registry).after es).boxes[slot]? = some b →
        Stint.playAll limits (.new b.spec) (({ limits } : Registry).stints slot [] es) =
          (b.bare, ({ limits } : Registry).results slot es)) ∧
      ({ limits } : Registry).total (launchesAt slot) es ≤ 1 ∧
      ({ limits } : Registry).total (startsAt slot) es ≤ 1 ∧
      ({ limits } : Registry).total (endsAt slot) es =
        if (({ limits } : Registry).after es).boxes[slot]?.any (fun b => b.record.status.isTerminal)
        then 1 else 0 := by
  have hserial := (serialAt_start limits slot).run es
  have htally := (tallyAt_start limits slot).run es
  rw [List.nil_append] at hserial
  simp only [Nat.zero_add] at htally
  refine ⟨?_, ?_, ?_⟩
  . intro b t e hb hholder he
    have hacts : ¬e.Acts b := by
      rintro ⟨task, htask, hclaim⟩
      cases Box.claim_eq_true_iff.mp hclaim with
      | inl hidle =>
        rw [hidle] at hholder
        cases hholder
      | inr hown =>
        rw [hholder] at hown
        exact he (by rw [htask, ← hown])
    have hreachable : Reachable limits (fun _ _ => True) (({ limits } : Registry).after es) :=
      Reachable.after .start fun _ _ _ => trivial
    rw [← hholder]
    exact untouched_step hreachable hb hacts
  . intro b hb
    rcases exists_cell? hb with ⟨c, hc, rfl⟩
    have hplayed := (hserial.cell c hc).2.played
    rw [limits_after (tidy_start limits)] at hplayed
    exact hplayed
  . cases hc : (({ limits } : Registry).after es).cell? slot with
    | none =>
      have hzero := htally.absent hc
      simp only [Prod.mk.injEq] at hzero
      rw [hzero.1, hzero.2.1, hzero.2.2, cell?_eq_none.mp hc]
      exact ⟨Nat.zero_le 1, Nat.zero_le 1, rfl⟩
    | some c =>
      have htally := (htally.cell c hc).2
      rw [(cell?_eq_some.mp hc).1]
      exact ⟨htally.launched, htally.started, htally.terminal⟩

end Registry

end BoxRegistry
