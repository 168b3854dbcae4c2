import BoxRegistry.Proofs.Registry.Calls
import BoxRegistry.Proofs.Registry.Serial
import BoxRegistry.Proofs.Registry.Stages

namespace BoxRegistry

open Time (Moment Span)

/--
What a move does to the process of a box, if it gives the box the process `gained` at most and takes the
process `lost` away at most.
-/
structure Box.Changes (b b' : Box) (gained lost : Pid → Prop) : Prop where
  pid : ∀ pid, b'.record.pid = some pid → b.record.pid = some pid ∨ gained pid
  kept : ∀ pid, b.Runs pid → b'.Runs pid ∨ lost pid
  launched : ∀ pid, gained pid → b'.Runs pid

theorem Box.changes_of_same {b b' : Box} (hrecord : b'.record = b.record) (hremoved : b'.removed = b.removed)
    {lost : Pid → Prop}
    : b.Changes b' (fun _ => False) lost where
  pid pid hpid := .inl (by rw [← hrecord, hpid])
  kept pid hruns := .inl (hruns.congr hrecord hremoved)
  launched pid h := h.elim

theorem Box.Changes.imp {b b' : Box} {gained lost lost' : Pid → Prop} (h : b.Changes b' (fun _ => False) lost)
    (hgained : ∀ pid, ¬gained pid) (hlost : ∀ pid, b.Runs pid → lost pid → lost' pid)
    : b.Changes b' gained lost' where
  pid pid hpid := .inl ((h.pid pid hpid).resolve_right id)
  kept pid hruns := (h.kept pid hruns).imp id (hlost pid hruns)
  launched pid hpid := absurd hpid (hgained pid)

theorem Box.Changes.congr {b b' a a' : Box} {gained lost : Pid → Prop} (h : b.Changes b' gained lost)
    (hrecord : a.record = b.record) (hremoved : a.removed = b.removed) (hrecord' : a'.record = b'.record)
    (hremoved' : a'.removed = b'.removed)
    : a.Changes a' gained lost where
  pid pid hpid := by
    rw [hrecord'] at hpid
    rw [hrecord]
    exact h.pid pid hpid
  kept pid hruns := (h.kept pid (hruns.congr hrecord.symm hremoved.symm)).imp
    (fun h => h.congr hrecord' hremoved') id
  launched pid hpid := (h.launched pid hpid).congr hrecord' hremoved'

theorem Box.changes_of_over {b b' : Box} {pid : Pid} (hruns : b.Runs pid) (hpid : b'.record.pid = none)
    : b.Changes b' (fun _ => False) fun p => p = pid where
  pid p hp := by
    rw [hpid] at hp
    cases hp
  kept p hp := .inr (hruns.eq hp)
  launched p hp := hp.elim

theorem Box.changes_of_untouched {b b' : Box} (h : b.Untouched b') {lost : Pid → Prop}
    : b.Changes b' (fun _ => False) lost :=
  changes_of_same h.record h.removed

namespace Operation

theorem changes_enter (op : Operation) (b : Box) : b.Changes (op.enter b).box (fun _ => False) fun _ => False := by
  have hmoves := op.moves_enter b
  generalize op.enter b = m at hmoves
  cases hmoves with
  | refuse f turns => exact Box.changes_of_same rfl rfl
  | set free fits => exact Box.changes_of_same rfl rfl
  | beginStop stage stops fits => exact Box.changes_of_same rfl rfl
  | remove removes inactive listed =>
    constructor
    . exact fun pid hpid => .inl hpid
    . intro pid hruns
      rw [hruns.active] at inactive
      cases inactive
    . simp

theorem not_runs_of_created {b : Box} (h : b.record.status = .created) (pid : Pid) : ¬b.Runs pid := by
  intro hruns
  have hactive := hruns.active
  rw [h] at hactive
  cases hactive

def Gains (stage : Stage) (reply : Reply) (pid : Pid) : Prop :=
  stage = .launching ∧ reply = .launched pid

def Ends (stage : Stage) (reply : Reply) (pid : Pid) : Prop :=
  stage = .confirming pid ∨ stage = .parting pid ∧ ∃ how, reply = .ended how

section Launch

variable {b : Box}

theorem changes_succeedStart (hcreated : b.record.status = .created) (hlisted : b.removed = false) (now : Moment)
    (pid : Pid)
    : b.Changes (b.succeedStart now pid).box (Gains .launching (.launched pid)) (Ends .launching (.launched pid)) := by
  rcases b.record.markRunning_of_created now hcreated pid with ⟨record, hrecord, hstatus, hpid⟩
  simp only [Box.succeedStart, hrecord]
  constructor
  . intro p hp
    rw [hpid] at hp
    cases hp
    exact .inr ⟨rfl, rfl⟩
  . exact fun p hruns => absurd hruns (not_runs_of_created hcreated p)
  . rintro p ⟨-, heq⟩
    cases heq
    exact ⟨hlisted, by rw [hstatus]; rfl, hpid⟩

theorem changes_failStart (hcreated : b.record.status = .created) (now : Moment) {message : String} {limits : Limits}
    {reply : Reply} (hfailed : reply.launch limits = .error message)
    : b.Changes (b.failStart now message).box (Gains .launching reply) (Ends .launching reply) := by
  rcases b.record.markStartFailed_of_created now hcreated message with ⟨record, hrecord, -, hpid⟩
  simp only [Box.failStart, hrecord]
  constructor
  . intro p hp
    rw [hpid] at hp
    cases hp
  . exact fun p hruns => absurd hruns (not_runs_of_created hcreated p)
  . rintro p ⟨-, rfl⟩
    cases hfailed

end Launch

section Late

-- A stage that comes after the launch gives a box no process.
variable {b b' : Box} {stage : Stage} {reply : Reply}

theorem changes_of_kept (hlate : stage ≠ .launching) (h : b.Changes b' (fun _ => False) fun _ => False)
    : b.Changes b' (Gains stage reply) (Ends stage reply) :=
  h.imp (fun _ hgains => hlate hgains.1) fun _ _ hlost => hlost.elim

theorem changes_of_ends {pid : Pid} (hlate : stage ≠ .launching) (hends : Ends stage reply pid)
    (h : b.Changes b' (fun _ => False) fun p => p = pid)
    : b.Changes b' (Gains stage reply) (Ends stage reply) := by
  apply h.imp (fun _ hgains => hlate hgains.1)
  rintro p - rfl
  exact hends

end Late

theorem changes_commit {b : Box} {record : Record} (hactive : record.status.isActive = true)
    (hpid : record.pid = b.record.pid)
    : b.Changes (b.commit (.ok record)).box (fun _ => False) fun _ => False where
  pid pid h := .inl (by rw [← hpid]; exact h)
  kept pid h := .inl ⟨h.listed, hactive, hpid.trans h.pid⟩
  launched pid h := h.elim

theorem changes_settleStop {op : Operation} {b : Box} {pid : Pid} (hruns : b.Runs pid) (now : Moment)
    (forced : Bool) (code : Option Int)
    : b.Changes (b.settleStop op now pid forced code).box (fun _ => False) fun p => p = pid := by
  have := b.record.markTerminated_eq_ok now (Status.apply_stop_eq_ok.mpr ⟨hruns.active, rfl⟩) rfl
    (.stopped forced code)
  apply Box.changes_of_over hruns
  simp only [Box.settleStop, this]
  cases op <;> rfl

theorem changes_proceed {op : Operation} {b : Box} {stage : Stage} (h : stage.Fits op b)
    (limits : Limits) (now : Moment) (reply : Reply)
    : b.Changes (op.proceed limits now b stage reply).box (Gains stage reply) (Ends stage reply) := by
  have hsame : b.Changes b (fun _ => False) fun _ => False := Box.changes_of_same rfl rfl
  have hproceeds := op.proceeds limits now b stage reply
  generalize op.proceed limits now b stage reply = m at hproceeds ⊢
  cases hproceeds with
  | launched pid => exact changes_succeedStart h.2.1 h.2.2 now pid
  | unlaunched failed => exact changes_failStart h.2.1 now failed
  | breaksOff message calm => exact changes_of_kept calm hsame
  | @eased pid grace reply whole => cases grace <;> exact changes_of_kept (by simp) hsame
  | parted how =>
    exact changes_of_ends (by simp) (.inr ⟨rfl, how, rfl⟩) (changes_settleStop h.2.1 now false how.code)
  | confirmed how => exact changes_of_ends (by simp) (.inl rfl) (changes_settleStop h.2.1 now true how.code)
  | presumed whole unknown => exact changes_of_ends (by simp) (.inl rfl) (changes_settleStop h.2.1 now true none)
  | unturned f turns =>
    rcases turns with ⟨pid, rfl | rfl⟩ <;> exact changes_of_kept (by simp) hsame
  | paused whole done =>
    rcases b.record.markPaused_of_running now h.2.1 with ⟨record, hrecord, hstatus, hpid⟩
    rw [hrecord]
    exact changes_of_kept (by simp) (changes_commit (by rw [hstatus]; rfl) hpid)
  | resumed whole done =>
    rcases b.record.markResumed_of_paused now h.2.1 with ⟨record, hrecord, hstatus, hpid⟩
    rw [hrecord]
    exact changes_of_kept (by simp) (changes_commit (by rw [hstatus]; rfl) hpid)
  | _ => exact changes_of_kept (by simp) hsame

end Operation

namespace Cell

variable {c : Cell}

def Launches (c : Cell) (pid : Pid) (e : Registry.Event) : Prop :=
  ∃ now task op, e = .reply now task (.launched pid) ∧ c.duty task = some (.work op .launching)

inductive Ends (c : Cell) (pid : Pid) : Registry.Event → Prop where
  | operation {now : Moment} {task : TaskId} {op : Operation} {stage : Stage} {reply : Reply}
    (duty : c.duty task = some (.work op stage)) (ends : Operation.Ends stage reply pid) :
    Ends c pid (.reply now task reply)
  | noticed {now : Moment} {task : TaskId} {result : Except Fault ProcessEnd}
    (duty : c.duty task = some (.notice pid result)) : Ends c pid (.turn now task)
  | watched {now : Moment} {task : TaskId} {reply : Reply} (duty : c.duty task = some (.watch pid))
    (whole : ∀ message, reply ≠ .panicked message) : Ends c pid (.reply now task reply)

theorem changes_notice {c₁ : Cell} (h : c₁.Orderly) (hbox : c.box.Untouched c₁.box) (fresh : TaskId)
    (now : Moment) (task : TaskId) (pid : Pid) (result : Except Fault ProcessEnd)
    : c.box.Changes (c₁.notice fresh now task pid result).1.box (fun _ => False) fun p => p = pid := by
  have hnotice := box_notice c₁ fresh now task pid result
  have hcases := Box.notices h.coherent now task pid result
  have hend : c₁.box.Changes (c₁.box.noticeEnd now task pid result).1 (fun _ => False) fun p => p = pid := by
    generalize c₁.box.noticeEnd now task pid result = out at hcases
    cases hcases with
    | ignore other => exact Box.changes_of_same rfl rfl
    | record watched runs marked ended process => exact Box.changes_of_over runs process
  exact hend.congr hbox.record.symm hbox.removed.symm hnotice.2.1 hnotice.2.2

theorem changes_apply {c₁ : Cell} (hbox : c.box.Untouched c₁.box) (limits : Limits) (fresh task : TaskId)
    (op : Operation) {m : Move} {gained lost : Pid → Prop} (hm : c₁.box.Changes m.box gained lost)
    : c.box.Changes (c₁.apply limits fresh task op m).1.box gained lost := by
  have happly := box_apply c₁ limits fresh task op m
  exact hm.congr hbox.record.symm hbox.removed.symm happly.2.1 happly.2.2

theorem changes_of_quiet {b' : Box} {e : Registry.Event} (huntouched : c.box.Untouched b')
    (hlaunches : ∀ pid, ¬c.Launches pid e)
    : c.box.Changes b' (fun pid => c.Launches pid e) (fun pid => c.Ends pid e) :=
  (Box.changes_of_untouched huntouched).imp hlaunches fun _ _ h => h

theorem not_launches {e : Registry.Event}
    (he : ∀ now task reply, e = .reply now task reply → ∀ op stage, c.duty task ≠ some (.work op stage)) (pid : Pid)
    : ¬c.Launches pid e := by
  rintro ⟨now, task, op, rfl, hduty⟩
  exact he now task _ rfl op _ hduty

theorem Arrives.ends {e : Registry.Event} {now : Moment} {task : TaskId} {pid : Pid} {result : Except Fault ProcessEnd}
    (h : c.Arrives now task e (.notice pid result))
    : c.Ends pid e := by
  cases h with
  | turn duty contends => exact .noticed duty
  | reply duty whole => exact .watched duty whole

theorem Sound.changes_step (h : c.Sound) (limits : Limits) (fresh : TaskId) (slot : Slot)
    (e : Registry.Event)
    : c.box.Changes (c.step limits fresh slot e).1.box (fun pid => c.Launches pid e)
      (fun pid => c.Ends pid e) := by
  have hsteps := c.steps limits fresh slot e
  generalize c.step limits fresh slot e = out at hsteps
  cases hsteps with
  | rests rests => exact changes_of_quiet (.refl _) (not_launches fun _ _ _ => rests.not_work)
  | begins op => exact changes_of_quiet (.refl _) (not_launches (by simp))
  | posts duty => exact changes_of_quiet (.refl _) (not_launches (by simp))
  | @queues e now task d arrives unclaimed =>
    exact changes_of_quiet (c.box.untouched_claim task) (not_launches fun _ _ _ => arrives.not_work)
  | @enters now task op duty claimed =>
    apply changes_apply (c.box.untouched_claim task)
    exact (op.changes_enter _).imp (not_launches (by simp)) fun _ _ h => h.elim
  | @proceeds now task reply op stage duty =>
    have hproceed := changes_apply (.refl c.box) limits fresh task op
      (op.changes_proceed (h.fits task op stage duty) limits now reply)
    constructor
    . intro pid hpid
      apply (hproceed.pid pid hpid).imp id
      rintro ⟨rfl, rfl⟩
      exact ⟨now, task, op, rfl, duty⟩
    . intro pid hruns
      exact (hproceed.kept pid hruns).imp id (.operation duty)
    . rintro pid ⟨now', task', op', heq, hd⟩
      cases heq
      rw [duty] at hd
      cases hd
      exact hproceed.launched pid ⟨rfl, rfl⟩
  | @reports e now task pid result arrives claimed =>
    have horderly := (h.claim_arrives arrives claimed).1
    have hnotice := changes_notice horderly (c.box.untouched_claim task) fresh now task pid result
    refine hnotice.imp (not_launches fun _ _ _ => arrives.not_work) ?_
    rintro p - rfl
    exact arrives.ends
  | @quits now task pid message duty =>
    refine changes_of_quiet (.refl _) (not_launches ?_)
    rintro _ _ _ heq op stage
    cases heq
    simp [duty]
  | samples sampled => exact changes_of_quiet ⟨rfl, rfl, rfl, rfl⟩ (not_launches (by simp))

end Cell

def Duty.over? : Duty → Option Pid
  | notice pid _ => some pid
  | work _ (.confirming pid) => some pid
  | enter _ | work .. | post _ | watch _ => none

namespace Operation

theorem next_enter_ne_confirming (op : Operation) (b : Box) (pid : Pid)
    : (op.enter b).next ≠ .wait (.confirming pid) := by
  intro h
  cases opens_enter h

theorem confirming_of_next_proceed {op : Operation} {limits : Limits} {now : Moment} {b : Box} {stage : Stage}
    {reply : Reply} {pid : Pid}
    (h : (op.proceed limits now b stage reply).next = .wait (.confirming pid))
    : stage = .killing pid ∧ (∀ message, reply ≠ .panicked message) ∧ ∀ f, reply ≠ .failed f := by
  cases leads_proceed h
  have hproceeds := op.proceeds limits now b (.killing pid) reply
  generalize op.proceed limits now b (.killing pid) reply = m at hproceeds h
  cases hproceeds with
  | breaksOff message calm => cases h
  | unkilled f => cases h
  | killed whole done => exact ⟨rfl, whole, done⟩
  | unturned f turns => cases h

end Operation

theorem Duty.over?_work {op : Operation} {stage : Stage} {pid : Pid} (h : (Duty.work op stage).over? = some pid)
    : stage = .confirming pid := by
  cases stage <;> simp [Duty.over?] at h
  rw [h]

theorem Duty.over?_of_isFirst {d : Duty} (h : d.isFirst = true) : d.over? = none := by
  cases d <;> first | rfl | cases h

namespace Cell

variable {c : Cell} {task fresh : TaskId}

inductive Learns (c : Cell) (task : TaskId) (pid : Pid) : Registry.Event → Prop where
  | watched {now : Moment} {reply : Reply} (duty : c.duty task = some (.watch pid))
    (whole : ∀ message, reply ≠ .panicked message) : Learns c task pid (.reply now task reply)
  | killed {now : Moment} {op : Operation} {reply : Reply} (duty : c.duty task = some (.work op (.killing pid)))
    (whole : ∀ message, reply ≠ .panicked message) (done : ∀ f, reply ≠ .failed f) :
    Learns c task pid (.reply now task reply)

theorem next_of_duty_apply {limits : Limits} {op : Operation} {m : Move} {d : Duty}
    (h : (c.apply limits fresh task op m).1.duty task = some d)
    : ∃ stage, d = .work op stage ∧ m.next = .wait stage := by
  have happlies := c.applies limits fresh task op m
  generalize c.apply limits fresh task op m = out at happlies h
  cases happlies with
  | @waits stage next =>
    simp only [duty_assign, if_true, Option.some.injEq] at h
    exact ⟨stage, h.symm, next⟩
  | leaves result quits => exact absurd rfl (duty_leave _ task h).1

inductive GoesOn (c : Cell) (limits : Limits) (task : TaskId) : Registry.Event → Duty → Duty → Prop where
  | stays (e : Registry.Event) (d : Duty) : GoesOn c limits task e d d
  | enters {now : Moment} {op : Operation} {stage : Stage}
    (next : (op.enter (c.box.claim task).2).next = .wait stage) :
    GoesOn c limits task (.turn now task) (.enter op) (.work op stage)
  | posts {now : Moment} (pid : Pid) : GoesOn c limits task (.turn now task) (.post pid) (.watch pid)
  | proceeds {now : Moment} {op : Operation} {stage stage' : Stage} {reply : Reply}
    (next : (op.proceed limits now c.box stage reply).next = .wait stage') :
    GoesOn c limits task (.reply now task reply) (.work op stage) (.work op stage')
  | learns {now : Moment} {pid : Pid} {reply : Reply} (whole : ∀ message, reply ≠ .panicked message) :
    GoesOn c limits task (.reply now task reply) (.watch pid) (.notice pid reply.ending)

theorem goesOn_step {limits : Limits} {slot : Slot} {e : Registry.Event} (he : e.task? = some task) {d : Duty}
    (h : (c.step limits fresh slot e).1.duty task = some d)
    : ∃ d', c.duty task = some d' ∧ c.GoesOn limits task e d' d := by
  have hsteps := c.steps limits fresh slot e
  generalize c.step limits fresh slot e = out at hsteps h
  cases hsteps with
  | rests rests => exact ⟨d, h, .stays e d⟩
  | begins op => cases he
  | @posts now t pid duty =>
    cases he
    simp only [duty_assign, if_true, Option.some.injEq] at h
    exact ⟨.post pid, duty, h ▸ .posts pid⟩
  | @queues e now t d' arrives unclaimed =>
    obtain rfl : t = task := Option.some.inj (arrives.task?_eq.symm.trans he)
    simp only [duty_assign, if_true, Option.some.injEq] at h
    subst h
    cases arrives with
    | turn duty contends => exact ⟨d', duty, .stays _ d'⟩
    | reply duty whole => exact ⟨_, duty, .learns whole⟩
  | enters duty claimed =>
    cases he
    rcases next_of_duty_apply h with ⟨stage, rfl, hnext⟩
    exact ⟨_, duty, .enters hnext⟩
  | proceeds duty =>
    cases he
    rcases next_of_duty_apply h with ⟨stage', rfl, hnext⟩
    exact ⟨_, duty, .proceeds hnext⟩
  | @reports e now t pid result arrives claimed =>
    obtain rfl : t = task := Option.some.inj (arrives.task?_eq.symm.trans he)
    exact absurd rfl (duty_leave _ t h).1
  | quits duty =>
    cases he
    simp [dropTask] at h
  | samples sampled => cases he

theorem over_step (c : Cell) (limits : Limits) (fresh : TaskId) (slot : Slot) (e : Registry.Event)
    {t : TaskId} {d : Duty} {pid : Pid} (h : (c.step limits fresh slot e).1.duty t = some d)
    (hover : d.over? = some pid)
    : (∃ d', c.duty t = some d' ∧ d'.over? = some pid) ∨ c.Learns t pid e := by
  by_cases ht : e.task? = some t
  . rcases goesOn_step ht h with ⟨d', hduty, hgoes⟩
    cases hgoes with
    | stays e d => exact .inl ⟨d, hduty, hover⟩
    | enters next =>
      rw [Duty.over?_work hover] at next
      exact absurd next (Operation.next_enter_ne_confirming _ _ pid)
    | posts pid' => cases hover
    | proceeds next =>
      rw [Duty.over?_work hover] at next
      rcases Operation.confirming_of_next_proceed next with ⟨rfl, hwhole, hdone⟩
      exact .inr (.killed hduty hwhole hdone)
    | learns whole =>
      cases hover
      exact .inr (.watched hduty whole)
  . rcases c.duty_step limits fresh slot e ht h with hold | ⟨-, hfirst⟩
    . exact .inl ⟨d, hold, hover⟩
    . rw [Duty.over?_of_isFirst hfirst] at hover
      cases hover

end Cell

end BoxRegistry
