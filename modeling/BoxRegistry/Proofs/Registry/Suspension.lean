import BoxRegistry.Proofs.Lifecycle.Course
import BoxRegistry.Proofs.Registry.Happens
import BoxRegistry.Proofs.Registry.Process
import BoxRegistry.Proofs.Registry.Stages

namespace BoxRegistry

open Time (Moment Span)

def Call.suspends? (pid : Pid) : Call → Option Bool
  | pause p => if p = pid then some true else none
  | resume p => if p = pid then some false else none
  | launch _ | terminate .. | wait _ => none

def Stage.suspends? (pid : Pid) : Stage → Option Bool
  | pausing p => if p = pid then some true else none
  | easing p _ | resuming p => if p = pid then some false else none
  | launching | asking .. | parting _ | killing _ | confirming _ => none

def Duty.suspends? (pid : Pid) : Duty → Option Bool
  | work _ stage => stage.suspends? pid
  | enter _ | post _ | watch _ | notice .. => none

theorem Duty.suspends?_of_call? {d : Duty} {limits : Limits} {spec : Spec} {call : Call} {bound : Bound}
    (h : d.call? limits spec = some (call, bound)) (pid : Pid)
    : d.suspends? pid = call.suspends? pid := by
  cases d with
  | work op stage => cases stage <;> cases h <;> rfl
  | watch p =>
    cases h
    rfl
  | enter op => cases h
  | post p => cases h
  | notice p result => cases h

theorem Duty.suspends?_of_bound {d : Duty} {limits : Limits} {spec : Spec} {call : Call} {bound : Bound}
    (h : d.call? limits spec = some (call, bound)) (hbound : bound ≠ .unlimited) (pid : Pid)
    : d.suspends? pid = none := by
  cases d with
  | work op stage => cases stage <;> cases h <;> first | rfl | exact absurd rfl hbound
  | _ => rfl

def Registry.Event.suspends? (r : Registry) (pid : Pid) : Registry.Event → Option Bool
  | reply _ task _ => (r.task? task).bind fun t => t.duty.suspends? pid
  | create .. | begin .. | turn .. | describe .. => none

def Stage.presses : Stage → Bool
  | asking .. | parting _ | killing _ | confirming _ => true
  | launching | easing .. | pausing _ | resuming _ => false

inductive Stage.Turns (b : Box) : Stage → Reply → Move → Prop where
  | eases {pid : Pid} {grace : Option Span} {reply : Reply} {stage : Stage} (presses : stage.presses = true) :
    Turns b (.easing pid grace) reply (b.await stage)
  | goesOn {origin stage : Stage} {reply : Reply} (pressed : origin.presses = true)
    (presses : stage.presses = true) :
    Turns b origin reply (b.await stage)
  | givesUp {pid : Pid} (f : Fault) :
    Turns b (.killing pid) (.failed f) { b.refuse (.stopFailed f.message) with deeds := [.watch pid] }
  | ends {origin : Stage} {reply : Reply} {m : Move} (ended : m.box.record.status.isActive = false) :
    Turns b origin reply m
  | suspends {pid : Pid} {record : Record} (paused : record.status = .paused) :
    Turns b (.pausing pid) .done { box := { b with record }, next := .finish (.ok ()) }
  | resumes {pid : Pid} {record : Record} (running : record.status = .running) :
    Turns b (.resuming pid) .done { box := { b with record }, next := .finish (.ok ()) }

theorem Operation.turns_settleStop {op : Operation} {b : Box} {pid : Pid} (hruns : b.Runs pid) (origin : Stage)
    (reply : Reply) (now : Moment) (forced : Bool) (code : Option Int)
    : origin.Turns b reply (b.settleStop op now pid forced code) := by
  apply Stage.Turns.ends
  have hmarked := b.record.markTerminated_eq_ok now (Status.apply_stop_eq_ok.mpr ⟨hruns.active, rfl⟩) rfl
    (.stopped forced code)
  simp only [Box.settleStop, hmarked]
  cases op <;> rfl

theorem Operation.turns_proceed {op : Operation} {b : Box} {stage : Stage} (h : stage.Fits op b)
    (hstage : stage ≠ .launching) (limits : Limits) (now : Moment) {reply : Reply}
    (hwhole : ∀ message, reply ≠ .panicked message)
    (hobeyed : ∀ pid, stage = .pausing pid ∨ stage = .resuming pid → reply = .done)
    : stage.Turns b reply (op.proceed limits now b stage reply) := by
  have hproceeds := op.proceeds limits now b stage reply
  generalize op.proceed limits now b stage reply = m at hproceeds ⊢
  cases hproceeds with
  | launched pid => exact absurd rfl hstage
  | unlaunched failed => exact absurd rfl hstage
  | breaksOff message calm => exact absurd rfl (hwhole message)
  | @eased pid grace reply whole => cases grace <;> exact .eases rfl
  | parted | confirmed | presumed => exact turns_settleStop h.2.1 _ _ now _ _
  | unkilled f => exact .givesUp f
  | unturned f turns =>
    rcases turns with ⟨pid, hturns⟩
    cases hobeyed pid hturns
  | paused whole done =>
    rcases b.record.markPaused_of_running now h.2.1 with ⟨record, hrecord, hstatus, -⟩
    obtain rfl := hobeyed _ (.inl rfl)
    simp only [Box.commit, hrecord]
    exact .suspends hstatus
  | resumed whole done =>
    rcases b.record.markResumed_of_paused now h.2.1 with ⟨record, hrecord, hstatus, -⟩
    obtain rfl := hobeyed _ (.inr rfl)
    simp only [Box.commit, hrecord]
    exact .resumes hstatus
  | _ => exact .goesOn rfl rfl

namespace Cell

def suspends? (c : Cell) (pid : Pid) : Registry.Event → Option Bool
  | .reply _ task _ => (c.duty task).bind (Duty.suspends? pid)
  | .create .. | .begin .. | .turn .. | .describe .. => none

def Pressed (c : Cell) : Prop :=
  ∃ t op stage, c.duty t = some (.work op stage) ∧ stage.presses = true

def FailsToStop (c : Cell) (e : Registry.Event) (effects : List Effect) : Prop :=
  ∃ t op stage message, e.task? = some t ∧ c.duty t = some (.work op stage) ∧ op.stops = true ∧
    effects.filterMap Effect.result? = [(t, .error (.stopFailed message))]

/--
What becomes of a box that keeps its process, by whether the process was suspended before and whether it is
afterwards.
-/
inductive Swings (c c' : Cell) (before after : Bool) (fails : Prop) : Prop where
  | stays (status : c'.box.record.status = c.box.record.status) (pressed : c'.Pressed ↔ c.Pressed)
    (same : after = before)
  | presses (status : c'.box.record.status = c.box.record.status) (unpaused : c.box.record.status ≠ .paused)
    (pressed : c'.Pressed) (same : after = before)
  | eases (status : c'.box.record.status = c.box.record.status) (pressed : c'.Pressed) (goesOn : after = false)
  | suspends (running : c.box.record.status = .running) (paused : c'.box.record.status = .paused)
    (free : ¬c.Pressed) (free' : ¬c'.Pressed) (suspended : after = true)
  | resumes (running : c'.box.record.status = .running) (goesOn : after = false)
  | fails (fails : fails) (status : c'.box.record.status = c.box.record.status) (pressed : c.Pressed)
    (free : ¬c'.Pressed) (same : after = before)

variable {c c' : Cell} {limits : Limits} {fresh task : TaskId} {pid : Pid} {before after : Bool}

theorem Swings.imp {fails fails' : Prop} (h : Swings c c' before after fails) (himp : fails → fails')
    : Swings c c' before after fails' := by
  cases h with
  | stays status pressed same => exact .stays status pressed same
  | presses status unpaused pressed same => exact .presses status unpaused pressed same
  | eases status pressed goesOn => exact .eases status pressed goesOn
  | suspends running paused free free' suspended => exact .suspends running paused free free' suspended
  | resumes running goesOn => exact .resumes running goesOn
  | fails fails status pressed free same => exact .fails (himp fails) status pressed free same

theorem pressed_congr (h : ∀ t op stage, c'.duty t = some (.work op stage) ↔ c.duty t = some (.work op stage))
    : c'.Pressed ↔ c.Pressed := by
  simp only [Pressed, h]

theorem Orderly.pressed_iff (h : c.Orderly) {op : Operation} {stage : Stage}
    (hduty : c.duty task = some (.work op stage))
    : c.Pressed ↔ stage.presses = true := by
  constructor
  . rintro ⟨t, op', stage', hduty', hpresses⟩
    have hholder := h.worker task op stage hduty
    rw [h.worker t op' stage' hduty'] at hholder
    obtain rfl := Option.some.inj hholder
    rw [hduty] at hduty'
    cases hduty'
    exact hpresses
  . exact fun hpresses => ⟨task, op, stage, hduty, hpresses⟩

theorem Orderly.not_pressed_of_claim (h : c.Orderly) (hclaim : (c.box.claim task).1 = true)
    (hidle : ∀ op stage, c.duty task ≠ some (.work op stage))
    : ¬c.Pressed := by
  rintro ⟨t, op, stage, hduty, -⟩
  exact h.idle_of_claim hclaim hidle t op stage hduty

theorem Orderly.not_pressed_apply (h : c.Orderly) (hholder : c.box.holder = some task) (hfresh : c.duty fresh = none)
    {op : Operation} {origin : Option Stage} {m : Move} (hm : op.Moves c.box origin m)
    (hnext : ∀ stage, m.next = .wait stage → stage.presses = false) (limits : Limits)
    : ¬(c.apply limits fresh task op m).1.Pressed := by
  rintro ⟨t, op', stage, ht, hpresses⟩
  rw [hnext stage (h.work_apply hholder hfresh hm limits ht).2.2] at hpresses
  cases hpresses

theorem pressed_apply (c : Cell) (limits : Limits) (fresh task : TaskId) (op : Operation) {m : Move} {stage : Stage}
    (hnext : m.next = .wait stage) (hpresses : stage.presses = true)
    : (c.apply limits fresh task op m).1.Pressed :=
  ⟨task, op, stage, c.duty_apply_wait limits fresh task op hnext, hpresses⟩

theorem status_apply (c : Cell) (limits : Limits) (fresh task : TaskId) (op : Operation) (m : Move)
    : (c.apply limits fresh task op m).1.box.record.status = m.box.record.status := by
  rw [(c.box_apply limits fresh task op m).2.1]

theorem results_finish (c : Cell) (limits : Limits) (fresh task : TaskId) (op : Operation) {m : Move}
    {result : Except Fault Unit} (hnext : m.next = .finish result)
    : (c.apply limits fresh task op m).2.filterMap Effect.result? = [(task, result)] := by
  rw [results_apply c limits fresh task op m fresh [], hnext]
  rfl

section Swings

variable {op : Operation} {stage : Stage} {fails : Prop}

theorem Swings.goesOn (h : Swings c c' false after fails) (hfixed : c.Pressed ∨ c.box.record.status ≠ .running)
    : after = false := by
  cases h with
  | stays status pressed same => exact same
  | presses status unpaused pressed same => exact same
  | eases status pressed goesOn => exact goesOn
  | suspends running paused free free' suspended =>
    rcases hfixed with hpressed | hstill
    . exact absurd hpressed free
    . exact absurd running hstill
  | resumes running goesOn => exact goesOn
  | fails fails status pressed free same => exact same

theorem swings_enter {c₁ : Cell} (h : c₁.Orderly) (hholder : c₁.box.holder = some task)
    (hfresh : c₁.duty fresh = none) (hrecord : c₁.box.record = c.box.record) (hfree : ¬c.Pressed)
    (hactive : c.box.record.status.isActive = true) (limits : Limits) (op : Operation)
    : Swings c (c₁.apply limits fresh task op (op.enter c₁.box)).1 before before fails := by
  have hmoves := op.moves_enter c₁.box
  have hstatus : (c₁.apply limits fresh task op (op.enter c₁.box)).1.box.record.status = c.box.record.status := by
    rw [status_apply, Operation.record_enter, hrecord]
  have hquiet : (∀ stage, (op.enter c₁.box).next = .wait stage → stage.presses = false) →
      Swings c (c₁.apply limits fresh task op (op.enter c₁.box)).1 before before fails := by
    intro hnext
    have hfree' := h.not_pressed_apply hholder hfresh hmoves hnext limits
    exact .stays hstatus (iff_of_false hfree' hfree) rfl
  cases hnext : (op.enter c₁.box).next with
  | finish result => exact hquiet (by simp [hnext])
  | crash message => exact hquiet (by simp [hnext])
  | wait stage =>
    have hwaits : stage.presses = false → Swings c (c₁.apply limits fresh task op (op.enter c₁.box)).1 before before
        fails := by
      intro hpresses
      apply hquiet
      intro s hs
      rw [hnext] at hs
      cases hs
      exact hpresses
    have hpresses : stage.presses = true → c.box.record.status ≠ .paused →
        Swings c (c₁.apply limits fresh task op (op.enter c₁.box)).1 before before fails :=
      fun hpresses hunpaused => .presses hstatus hunpaused (c₁.pressed_apply limits fresh task op hnext hpresses) rfl
    have hopens := Operation.opens_enter hnext
    rw [← hrecord] at hactive hpresses
    cases hopens with
    | launch start created =>
      rw [created] at hactive
      cases hactive
    | ask stop unpaused => exact hpresses rfl unpaused
    | kill remove unpaused => exact hpresses rfl unpaused
    | ease presses paused => exact hwaits rfl
    | pause pause running => exact hwaits rfl
    | resume resume paused => exact hwaits rfl

theorem swings_proceed (h : c.Sound) (hfresh : c.duty fresh = none) (hduty : c.duty task = some (.work op stage))
    (hruns : c.box.Runs pid) (limits : Limits) (now : Moment) {reply : Reply}
    (hwhole : stage ≠ .launching → ∀ message, reply ≠ .panicked message)
    (hobeyed : (stage.suspends? pid).isSome = true → reply = .done)
    (hactive : (op.proceed limits now c.box stage reply).box.record.status.isActive = true)
    : let out := c.apply limits fresh task op (op.proceed limits now c.box stage reply)
      Swings c out.1 before ((stage.suspends? pid).getD before) (c.FailsToStop (.reply now task reply) out.2) := by
  have hfits := h.fits task op stage hduty
  have hholder := h.worker task op stage hduty
  have hmoves := op.moves_proceed hfits limits now reply
  have hpressed := h.toOrderly.pressed_iff hduty
  have hpid : ∀ p, c.box.Runs p → p = pid := fun p hp => hruns.eq hp
  have hstage : stage ≠ .launching := by
    rintro rfl
    have hcreated := hruns.active
    rw [hfits.2.1] at hcreated
    cases hcreated
  have hturns : stage.Turns c.box reply (op.proceed limits now c.box stage reply) := by
    apply Operation.turns_proceed hfits hstage limits now (hwhole hstage)
    rintro p (rfl | rfl) <;>
    . obtain rfl := hpid p hfits.2.2
      exact hobeyed (by simp [Stage.suspends?])
  dsimp only
  generalize op.proceed limits now c.box stage reply = m at hmoves hactive hturns
  have hstatus := c.status_apply limits fresh task op m
  cases hturns with
  | @eases p grace reply stage' presses =>
    have hgoes : (Stage.suspends? pid (.easing p grace)).getD before = false := by
      simp [Stage.suspends?, hpid p hfits.2.1]
    exact .eases hstatus (c.pressed_apply limits fresh task op rfl presses) hgoes
  | @goesOn origin stage' reply pressed presses =>
    have hstill : (stage.suspends? pid).getD before = before := by
      cases stage <;> first | rfl | cases pressed
    refine .stays hstatus (iff_of_true ?_ (hpressed.mpr pressed)) hstill
    exact c.pressed_apply limits fresh task op rfl presses
  | @givesUp p f =>
    have hfree := h.toOrderly.not_pressed_apply hholder hfresh hmoves (by simp [Box.refuse]) limits
    refine .fails ⟨task, op, .killing p, f.message, rfl, hduty, hfits.1, ?_⟩ hstatus (hpressed.mpr rfl) hfree rfl
    exact c.results_finish limits fresh task op rfl
  | ends ended =>
    rw [ended] at hactive
    cases hactive
  | @suspends p record paused =>
    have hfree := h.toOrderly.not_pressed_apply hholder hfresh hmoves (by simp) limits
    have hsuspended : (Stage.suspends? pid (.pausing p)).getD before = true := by
      simp [Stage.suspends?, hpid p hfits.2.2]
    exact .suspends hfits.2.1 (hstatus.trans paused) (by simp [hpressed, Stage.presses]) hfree hsuspended
  | @resumes p record running =>
    have hgoes : (Stage.suspends? pid (.resuming p)).getD before = false := by
      simp [Stage.suspends?, hpid p hfits.2.2]
    exact .resumes (hstatus.trans running) hgoes

theorem swings_report {c₁ : Cell} (h : c₁.Orderly) (hholder : c₁.box.holder = some task)
    (hrecord : c₁.box.record = c.box.record) (hfree : ¬c.Pressed) (now : Moment)
    (p : Pid) (result : Except Fault ProcessEnd)
    (hactive : (c₁.notice fresh now task p result).1.box.record.status.isActive = true)
    : Swings c (c₁.notice fresh now task p result).1 before before fails := by
  have hnotices := Box.notices h.coherent now task p result
  have hbox := (c₁.box_notice fresh now task p result).2.1
  have hfree' : ¬(c₁.notice fresh now task p result).1.Pressed := by
    rintro ⟨t, op, stage, ht, -⟩
    exact h.not_work_notice hholder fresh now p result t op stage ht
  generalize c₁.box.noticeEnd now task p result = noticed at hnotices hbox
  rw [hbox] at hactive
  cases hnotices with
  | ignore other => exact .stays (by rw [hbox, hrecord]) (iff_of_false hfree' hfree) rfl
  | record watched runs marked ended process =>
    rw [Status.isTerminal_of_isActive hactive] at ended
    cases ended

theorem suspends?_of_idle {e : Registry.Event}
    (h : ∀ now t reply op stage, e = .reply now t reply → c.duty t ≠ some (.work op stage))
    : c.suspends? pid e = none := by
  cases e with
  | reply now t reply =>
    cases hduty : c.duty t with
    | none => simp [Cell.suspends?, hduty]
    | some d =>
      cases d with
      | work op stage => exact absurd hduty (h now t reply op stage rfl)
      | _ => simp [Cell.suspends?, hduty, Duty.suspends?]
  | _ => rfl

theorem Sound.swings (h : c.Sound) (hbelow : c.Below fresh) (limits : Limits) (slot : Slot) {e : Registry.Event}
    (hwhole : ∀ now t op stage message, e = .reply now t (.panicked message) → c.duty t = some (.work op stage) →
      stage = .launching)
    (hobeyed : c.box.Runs pid → ∀ now t reply, e = .reply now t reply → (c.suspends? pid e).isSome = true →
      reply = .done)
    (hruns : (c.step limits fresh slot e).1.box.Runs pid) (before : Bool)
    : c.Launches pid e ∨ c.box.Runs pid ∧
        Swings c (c.step limits fresh slot e).1 before ((c.suspends? pid e).getD before)
          (c.FailsToStop e (c.step limits fresh slot e).2) := by
  rcases (h.changes_step limits fresh slot e).pid pid hruns.pid with hpid | hlaunches
  . have hold := h.coherent.runs_of_pid hpid
    refine .inr ⟨hold, ?_⟩
    specialize hobeyed hold
    have hhappens := h.happens hbelow limits slot e
    have hactive' := hruns.active
    generalize c.step limits fresh slot e = out at hhappens hactive' ⊢
    generalize c.deeds limits e = deeds at hhappens
    cases hhappens with
    | @aside e c' effects untouched works wakes other =>
      rw [suspends?_of_idle other]
      exact .stays (congrArg Record.status untouched.record) (pressed_congr works) rfl
    | @posts now t p duty =>
      refine .stays rfl (pressed_congr ?_) rfl
      exact works_assign (by simp [duty]) (by simp)
    | @enters now t op c₁ duty claimed eq orderly holder =>
      have hfree : ¬c.Pressed := h.toOrderly.not_pressed_of_claim claimed (by simp [duty])
      subst eq
      exact swings_enter orderly holder hbelow.fresh (c.box.untouched_claim t).record hfree hold.active limits op
    | @proceeds now t reply op stage duty =>
      have hstill : c.suspends? pid (.reply now t reply) = stage.suspends? pid := by
        simp [Cell.suspends?, duty, Duty.suspends?]
      rw [hstill] at hobeyed ⊢
      rw [status_apply] at hactive'
      apply swings_proceed h hbelow.fresh duty hold limits now ?_ (hobeyed now t reply rfl) hactive'
      intro hstage message hreply
      subst hreply
      exact hstage (hwhole now t op stage message rfl duty)
    | @reports e now t d p result c₁ duty contends claimed eq orderly holder learns =>
      have hfree := h.toOrderly.not_pressed_of_claim claimed (not_work_of_contends duty contends)
      rw [suspends?_of_idle (not_work_of_learns duty contends learns)]
      subst eq
      exact swings_report orderly holder (c.box.untouched_claim t).record hfree now p result hactive'
  . exact .inl hlaunches

theorem Sound.running_of_launches (h : c.Sound) {e : Registry.Event} (hlaunches : c.Launches pid e) (limits : Limits)
    (fresh : TaskId) (slot : Slot)
    : (c.step limits fresh slot e).1.box.record.status = .running := by
  rcases hlaunches with ⟨now, t, op, rfl, hduty⟩
  have hcreated := (h.fits t op .launching hduty).2.1
  rcases c.box.record.markRunning_of_created now hcreated pid with ⟨record, hrecord, hstatus, -⟩
  rw [step_reply_work hduty]
  simp only [status_apply, Operation.proceed, Reply.launch, Box.succeedStart, hrecord]
  exact hstatus

theorem Sound.pressed_of_fails (h : c.Sound) (hbelow : c.Below fresh) (limits : Limits) (slot : Slot)
    {e : Registry.Event} (hfails : c.FailsToStop e (c.step limits fresh slot e).2)
    : c.Pressed := by
  rcases hfails with ⟨t, op, stage, message, he, hduty, hstops, hresults⟩
  have hhappens := h.happens hbelow limits slot e
  generalize c.step limits fresh slot e = out at hhappens hresults
  generalize c.deeds limits e = deeds at hhappens
  cases hhappens with
  | @aside e c' effects untouched works wakes other =>
    rw [filterMap_wakes wakes fun _ => rfl] at hresults
    cases hresults
  | posts duty => cases hresults
  | @enters now task op' c₁ duty claimed eq orderly holder =>
    cases he
    rw [duty] at hduty
    cases hduty
  | @proceeds now task reply op' stage' duty =>
    cases he
    rw [duty] at hduty
    cases hduty
    have hfits := h.fits t op stage duty
    have hmoves := op.moves_proceed hfits limits now reply
    generalize op.proceed limits now c.box stage reply = m at hmoves hresults
    rw [results_apply c limits fresh t op m fresh []] at hresults
    cases hmoves with
    | refuse f turns =>
      -- Only operations that do not stop the box are refused at a stage.
      rcases turns stage rfl with ⟨p, rfl | rfl⟩ <;>
      . rw [hfits.1] at hstops
        cases hstops
    | rearm f stops runs unwatched => exact ⟨t, op, _, duty, rfl⟩
    | _ => cases hresults
  | @reports e now task d p result c₁ duty contends claimed eq orderly holder learns =>
    rw [results_notice] at hresults
    cases hresults

end Swings

end Cell

end BoxRegistry
