import BoxRegistry.Proofs.Registry.Sound

namespace BoxRegistry

open Time (Moment Span)

def Cell.Stands (c : Cell) : Prop :=
  ∀ t, c.box.watch = some t → ∃ d, c.duty t = some d

/--
A box with a process is watched, or else it is being stopped.
-/
structure Cell.Guarded (c : Cell) : Prop where
  stands : c.Stands
  unwatched : c.box.record.status.isActive = true → c.box.watch = none →
    ∃ t op stage, c.box.holder = some t ∧ c.duty t = some (.work op stage) ∧ stage.stops = true

namespace Operation

theorem next_enter_ne_crash (op : Operation) (b : Box) (message : String) : (op.enter b).next ≠ .crash message := by
  intro hcrash
  have hmoves := op.moves_enter b
  generalize op.enter b = m at hmoves hcrash
  cases hmoves <;> cases hcrash

theorem next_proceed_eq_crash {op : Operation} {limits : Limits} {now : Moment} {b : Box} {stage : Stage}
    {reply : Reply} {message : String}
    (h : (op.proceed limits now b stage reply).next = .crash message)
    : stage ≠ .launching ∧ reply = .panicked message := by
  have hproceeds := op.proceeds limits now b stage reply
  have hends : ∀ m : Move, (∃ result, m.next = .finish result) → m.next ≠ .crash message := by
    rintro m ⟨result, hnext⟩
    rw [hnext]
    simp
  generalize op.proceed limits now b stage reply = m at hproceeds h
  cases hproceeds with
  | launched pid => exact absurd h (hends _ (b.finishes_succeedStart now pid))
  | unlaunched failed => exact absurd h (hends _ (b.finishes_failStart now _))
  | breaksOff message' calm =>
    cases h
    exact ⟨calm, rfl⟩
  | @eased pid grace reply whole => cases grace <;> cases h
  | parted | confirmed | presumed => exact absurd h (hends _ (b.finishes_settleStop ..))
  | paused | resumed => exact absurd h (hends _ (b.finishes_commit _))
  | _ => cases h

end Operation

namespace Cell

variable {c : Cell} {task fresh : TaskId}

theorem stands_of_unwatched (h : c.box.watch = none) : c.Stands := by
  intro t ht
  rw [h] at ht
  cases ht

theorem guarded_new (spec : Spec) : Guarded ⟨.new spec, fun _ => none⟩ where
  stands := stands_of_unwatched rfl
  unwatched := by simp [Box.new, Record.new, Status.isActive]

theorem Guarded.leave (hstands : c.Stands)
    (hwatch : c.box.record.status.isActive = true → c.box.watch ≠ none) (hother : c.box.watch ≠ some task)
    : (c.leave task).1.Guarded where
  stands t ht := by
    rcases hstands t ht with ⟨d, hd⟩
    have hne : t ≠ task := fun heq => hother (by rw [← heq, ← ht]; rfl)
    exact ⟨d, by simp [Cell.leave, dropTask, hne, hd]⟩
  unwatched hactive hnone := absurd hnone (hwatch hactive)

theorem Guarded.wait (hstands : c.Stands) (hholder : c.box.holder = some task) {op : Operation} {stage : Stage}
    (hstage : c.box.record.status.isActive = true → c.box.watch = none → stage.stops = true)
    : (c.assign task (.work op stage)).Guarded where
  stands t ht := by
    rcases hstands t ht with ⟨d, hd⟩
    rw [duty_assign]
    split
    . exact ⟨_, rfl⟩
    . exact ⟨d, hd⟩
  unwatched hactive hnone := ⟨task, op, stage, hholder, by simp [duty_assign], hstage hactive hnone⟩

theorem stands_arm (c : Cell) (fresh : TaskId) (pid : Pid) : (c.arm fresh pid).Stands := by
  intro t ht
  refine ⟨.post pid, ?_⟩
  simp only [arm, Option.some.injEq] at ht
  simp [arm, duty_assign, ht]

theorem Stands.move (hstands : c.Stands) {op : Operation} {origin : Option Stage} {m : Move}
    (hm : op.Moves c.box origin m) (hcrash : ∀ message, m.next ≠ .crash message)
    (hfree : c.box.record.status.isActive = true → c.box.watch = none →
      ∃ stage, origin = some stage ∧ stage.stops = true)
    (fresh : TaskId)
    : (({ c with box := m.box } : Cell).performAll fresh m.deeds).1.Stands ∧
      ((({ c with box := m.box } : Cell).performAll fresh m.deeds).1.box.record.status.isActive = true →
        (({ c with box := m.box } : Cell).performAll fresh m.deeds).1.box.watch = none →
        ∃ stage, m.next = .wait stage ∧ stage.stops = true) := by
  -- A move that begins a stop calls the watch off. Those that give the stop up set a new one.
  cases hm with
  | refuse f turns =>
    refine ⟨hstands, ?_⟩
    intro hactive hnone
    rcases hfree hactive hnone with ⟨stage, horigin, hstops⟩
    rcases turns stage horigin with ⟨pid, rfl | rfl⟩ <;> cases hstops
  | crash message calm => exact absurd rfl (hcrash message)
  | set free fits =>
    refine ⟨hstands, ?_⟩
    intro hactive hnone
    rcases hfree hactive hnone with ⟨stage, horigin, -⟩
    cases horigin
  | beginStop stage stops fits => exact ⟨stands_of_unwatched rfl, fun _ _ => ⟨stage, rfl, stops⟩⟩
  | @press origin stage stops fits => exact ⟨hstands, fun _ _ => ⟨stage, rfl, stops⟩⟩
  | launch start created listed running process => exact ⟨stands_arm _ _ _, by simp [performAll, perform, arm]⟩
  | failLaunch start created listed failed process =>
    refine ⟨hstands, ?_⟩
    intro hactive
    simp [performAll, perform, failed, Status.isActive] at hactive
  | turnOver runs active process turns =>
    refine ⟨hstands, ?_⟩
    intro _ hnone
    rcases hfree runs.active hnone with ⟨stage, horigin, hstops⟩
    rcases turns with ⟨-, rfl⟩ | ⟨-, rfl⟩
    . cases horigin
      cases hstops
    . cases horigin
      cases hstops
  | stop stops runs unwatched stopped process ends =>
    refine ⟨hstands, ?_⟩
    intro hactive
    simp [performAll, perform, stopped, Status.isActive] at hactive
  | stopAndRemove removes runs unwatched stopped process ends =>
    refine ⟨stands_of_unwatched rfl, ?_⟩
    intro hactive
    simp [Box.unlist, performAll, perform, disarm, stopped, Status.isActive] at hactive
  | rearm f stops runs unwatched => exact ⟨stands_arm _ _ _, by simp [performAll, perform, arm]⟩
  | remove removes inactive listed =>
    refine ⟨stands_of_unwatched rfl, ?_⟩
    intro hactive
    simp [Box.unlist, performAll, perform, disarm, inactive] at hactive

theorem Guarded.apply (h : c.Orderly) (hstands : c.Stands) (hholder : c.box.holder = some task) {d : Duty}
    (hduty : c.duty task = some d) (hvigil : d.isVigil = false) (hd : d.watched? = none)
    (hfresh : c.duty fresh = none) (hlt : task < fresh) {op : Operation}
    {origin : Option Stage} {m : Move} (hm : op.Moves c.box origin m)
    (hcrash : ∀ message, m.next ≠ .crash message)
    (hfree : c.box.record.status.isActive = true → c.box.watch = none →
      ∃ stage, origin = some stage ∧ stage.stops = true)
    (limits : Limits)
    : (c.apply limits fresh task op m).1.Guarded := by
  have hmove := hstands.move hm hcrash hfree fresh
  have horderly := h.move hm hfresh
  have htask := Registry.Cell.duty_performAll (c := { c with box := m.box }) hduty hvigil hlt m.deeds
  unfold Cell.apply
  dsimp only
  cases hnext : m.next with
  | wait stage =>
    apply Guarded.wait hmove.1 (by rw [horderly.2.1, hholder])
    intro hactive hnone
    rcases hmove.2 hactive hnone with ⟨stage', hstage', hstops⟩
    rw [hnext] at hstage'
    cases hstage'
    exact hstops
  | finish result =>
    apply Guarded.leave hmove.1
    . intro hactive hnone
      rcases hmove.2 hactive hnone with ⟨stage', hstage', -⟩
      rw [hnext] at hstage'
      cases hstage'
    . intro hwatch
      rcases horderly.1.watch task d hwatch htask with ⟨pid, hpid, -⟩
      rw [hd] at hpid
      cases hpid
  | crash message => exact absurd hnext (hcrash message)

theorem Guarded.notice_end (h : c.Orderly) (hstands : c.Stands) (fresh : TaskId) (now : Moment) {pid : Pid}
    {result : Except Fault ProcessEnd} (hduty : c.duty task = some (.notice pid result))
    (hfree : c.box.record.status.isActive = true → c.box.watch ≠ none)
    : (c.notice fresh now task pid result).1.Guarded := by
  have hcases := Box.notices h.coherent now task pid result
  unfold Cell.notice
  generalize c.box.noticeEnd now task pid result = out at hcases ⊢
  cases hcases with
  | ignore other =>
    apply Guarded.leave hstands hfree
    intro hwatch
    rcases h.watch task _ hwatch hduty with ⟨pid', hpid', hrecord⟩
    have hactive := h.coherent.watch task hwatch
    cases hpid'
    exact other ⟨hwatch, h.coherent.runs hactive hrecord⟩
  | @record record watched runs marked ended process =>
    have hinactive := Status.isActive_of_isTerminal ended
    apply Guarded.leave
    . intro t ht
      cases ht
    . intro hactive
      simp [performAll, perform, disarm, hinactive] at hactive
    . simp [performAll, perform, disarm]

theorem Stands.assign (h : c.Stands) (task : TaskId) (d : Duty) : (c.assign task d).Stands := by
  intro t ht
  rcases h t ht with ⟨d', hd'⟩
  rw [duty_assign]
  split
  . exact ⟨d, rfl⟩
  . exact ⟨d', hd'⟩

theorem Guarded.claim_aside (h : c.Guarded) (d : Duty) (hclaim : (c.box.claim task).1 = false)
    : Guarded { c.assign task d with box := (c.box.claim task).2 } := by
  rcases c.box.untouched_claim task with ⟨-, hrecord, -, hwatch⟩
  rcases Box.holder_of_claim_aside hclaim with ⟨hholder, hother⟩
  constructor
  . intro t ht
    dsimp only at ht
    rw [hwatch] at ht
    exact h.stands.assign task d t ht
  . dsimp only
    rw [hrecord, hwatch, hholder]
    intro hactive hnone
    rcases h.unwatched hactive hnone with ⟨t, op, stage, ht, hwork, hstops⟩
    have hne : t ≠ task := fun heq => hother (by rw [ht, heq])
    exact ⟨t, op, stage, ht, duty_assign_eq_some.mpr (.inr ⟨hne, hwork⟩), hstops⟩

theorem Guarded.claim_held (h : c.Guarded) (horderly : c.Orderly) (hclaim : (c.box.claim task).1 = true)
    (hidle : ∀ op stage, c.duty task ≠ some (.work op stage)) (d : Duty)
    : Stands { c.assign task d with box := (c.box.claim task).2 } ∧
      ((c.box.claim task).2.record.status.isActive = true → (c.box.claim task).2.watch ≠ none) := by
  rcases c.box.untouched_claim task with ⟨-, hrecord, -, hwatch⟩
  constructor
  . intro t ht
    dsimp only at ht
    rw [hwatch] at ht
    exact h.stands.assign task d t ht
  . rw [hrecord, hwatch]
    intro hactive hnone
    rcases h.unwatched hactive hnone with ⟨t, op, stage, -, hwork, -⟩
    exact horderly.idle_of_claim hclaim hidle t op stage hwork

theorem Guarded.assign (h : c.Guarded)
    (htask : ∀ d, c.duty task = some d → d.isVigil = true) (d : Duty)
    : (c.assign task d).Guarded where
  stands := h.stands.assign task d
  unwatched hactive hnone := by
    rcases h.unwatched hactive hnone with ⟨t, op, stage, ht, hwork, hstops⟩
    have hne : t ≠ task := by
      intro heq
      rw [heq] at hwork
      have := htask _ hwork
      cases this
    exact ⟨t, op, stage, ht, by simp [duty_assign, hne, hwork], hstops⟩

theorem Guarded.step (h : c.Guarded) (hsound : c.Sound) (hbelow : c.Below fresh) (limits : Limits)
    (slot : Slot) {e : Registry.Event}
    (hcalm : ∀ now task message d, e = .reply now task (.panicked message) → c.duty task = some d →
      ∃ op, d = .work op .launching)
    : (c.step limits fresh slot e).1.Guarded := by
  have hsteps := c.steps limits fresh slot e
  generalize c.step limits fresh slot e = out at hsteps
  cases hsteps with
  | rests rests => exact h
  | begins op => exact h.assign (by simp [hbelow.fresh]) (.enter op)
  | @posts now task pid duty => exact h.assign (by simp [duty, Duty.isVigil]) (.watch pid)
  | @queues e now task d arrives unclaimed => exact h.claim_aside d unclaimed
  | @enters now task op duty claimed =>
    rcases hsound.claim_enter duty claimed with ⟨horderly, hholder⟩
    have hguarded := h.claim_held hsound.toOrderly claimed (by simp [duty]) (.enter op)
    rw [assign_self duty] at hguarded
    apply Guarded.apply horderly hguarded.1 hholder duty rfl rfl hbelow.fresh (hbelow.duty task _ duty)
      (op.moves_enter _)
    . exact op.next_enter_ne_crash (c.box.claim task).2
    . intro hactive hnone
      exact absurd hnone (hguarded.2 hactive)
  | @proceeds now task reply op stage duty =>
    have hholder := hsound.worker task op stage duty
    apply Guarded.apply hsound.toOrderly h.stands hholder duty rfl rfl hbelow.fresh (hbelow.duty task _ duty)
      (op.moves_proceed (hsound.fits task op stage duty) limits now reply)
    . intro message hcrash
      -- The backend breaks off in launches only, and those are starts that fail.
      rcases Operation.next_proceed_eq_crash hcrash with ⟨hstage, rfl⟩
      rcases hcalm now task message _ rfl duty with ⟨op', heq⟩
      cases heq
      exact hstage rfl
    . intro hactive hnone
      rcases h.unwatched hactive hnone with ⟨t, op', stage', ht, hwork, hstops⟩
      rw [hholder] at ht
      rw [← Option.some.inj ht, duty] at hwork
      cases hwork
      exact ⟨stage, rfl, hstops⟩
  | @reports e now task pid result arrives claimed =>
    have horderly := (hsound.claim_arrives arrives claimed).1
    have hguarded := h.claim_held hsound.toOrderly claimed arrives.not_work_self (.notice pid result)
    exact Guarded.notice_end horderly hguarded.1 fresh now (by simp [duty_assign]) hguarded.2
  | @quits now task pid message duty =>
    rcases hcalm now task message _ rfl duty with ⟨op, heq⟩
    cases heq
  | samples sampled => exact ⟨h.stands, h.unwatched⟩

theorem performAll_counts (c : Cell) (fresh : TaskId) (milestones : List Milestone) (deeds : List Deed)
    : c.performAll fresh (milestones.map .count ++ deeds) = c.performAll fresh deeds := by
  induction milestones with
  | nil => rfl
  | cons milestone milestones ih => exact ih

theorem watch_apply (c : Cell) (limits : Limits) (hne : task ≠ fresh) (op : Operation) {m : Move}
    (milestones : List Milestone) {pid : Pid} {result : Except Fault Unit}
    (hdeeds : m.deeds = milestones.map .count ++ [.watch pid]) (hnext : m.next = .finish result)
    : (c.apply limits fresh task op m).1.box.watch = some fresh ∧
      (c.apply limits fresh task op m).1.duty fresh = some (.post pid) := by
  simp only [apply, hdeeds, hnext, performAll_counts]
  refine ⟨rfl, ?_⟩
  simp [performAll, perform, arm, leave, dropTask, assign, hne.symm]

end Cell

namespace Registry

def OnlyLaunchesBreakOff (r : Registry) : Event → Prop
  | .reply _ task (.panicked _) => ∃ slot op, r.task? task = some ⟨slot, .work op .launching⟩
  | _ => True

theorem guarded_of_reachable {limits : Limits} {r : Registry} (h : Reachable limits OnlyLaunchesBreakOff r)
    {slot : Slot} {c : Cell} (hc : r.cell? slot = some c)
    : c.Guarded := by
  have hboth : c.Sound ∧ c.Guarded := by
    refine cell_of_reachable (P := fun c => c.Sound ∧ c.Guarded) ?_ ?_ h slot c hc
    . intro spec
      exact ⟨Cell.sound_new spec, Cell.guarded_new spec⟩
    . intro r slot c e htidy hc hallowed ih
      have hbelow := below_of_tidy htidy hc
      refine ⟨ih.1.step hbelow r.limits slot e, ih.2.step ih.1 hbelow r.limits slot ?_⟩
      rintro now task message d rfl hd
      rcases hallowed with ⟨slot', op, ht⟩
      rw [task?_of_duty hc hd] at ht
      cases ht
      exact ⟨op, rfl⟩
  exact hboth.2

/--
A task is there to report how a process of a box ends, and has not been called off. A task that waits for
the end is struck off when it is called off. One that knows the end finds out by the watch on the box.
-/
def Watcher (r : Registry) (slot : Slot) (task : TaskId) (pid : Pid) : Prop :=
  ∃ d, r.task? task = some ⟨slot, d⟩ ∧ d.watched? = some pid ∧
    (d.isVigil = true ∨ (r.boxes[slot]?.bind Box.watch) = some task)

inductive Reports (r : Registry) (slot : Slot) (now : Moment) (task : TaskId) (pid : Pid)
    (result : Except Fault ProcessEnd) : Event → Prop where
  | waited (duty : r.task? task = some ⟨slot, .notice pid result⟩) :
    Reports r slot now task pid result (.turn now task)
  | ended {reply : Reply} (duty : r.task? task = some ⟨slot, .watch pid⟩)
    (whole : ∀ message, reply ≠ .panicked message) (learns : reply.ending = result) :
    Reports r slot now task pid result (.reply now task reply)

def Records (r : Registry) (slot : Slot) (b : Box) (now : Moment) (pid : Pid)
    (result : Except Fault ProcessEnd) (e : Event) : Prop :=
  b.removed = false ∧ b.record.pid = some pid ∧
    ∃ record b', b.record.markTerminated now (b.record.status.closing result).1
        (b.record.status.closing result).2 = .ok record ∧
      record.status.isTerminal = true ∧
      (r.step e).1.boxes[slot]? = some b' ∧ b'.record = record ∧ b'.watch = none ∧
      .release pid ∈ (r.step e).2

section Watch

variable {r : Registry} {slot : Slot} {c : Cell}

theorem watcher_iff (hc : r.cell? slot = some c) (hsound : c.Sound) {t : TaskId} {pid : Pid}
    : r.Watcher slot t pid ↔
      c.box.watch = some t ∧ ∃ d, c.duty t = some d ∧ d.watched? = some pid := by
  rcases cell?_eq_some.mp hc with ⟨hbox, hduty⟩
  simp only [Watcher, hbox, Option.bind_some, ← hduty, duty?_eq_some]
  constructor
  . rintro ⟨d, ht, hd, hlive⟩
    refine ⟨?_, d, ht, hd⟩
    cases hlive with
    | inl hvigil => exact hsound.vigil t d (by rw [← hduty, duty?_eq_some, ht]) hvigil
    | inr hwatch => exact hwatch
  . rintro ⟨hwatch, d, ht, hd⟩
    exact ⟨d, ht, hd, .inr hwatch⟩

theorem watcher_of_duty (hc : r.cell? slot = some c) (hsound : c.Sound) {w : TaskId} (hwatch : c.box.watch = some w)
    {d : Duty} (hd : c.duty w = some d) {pid : Pid} (hpid : d.watched? = some pid) (t : TaskId) (p : Pid)
    : r.Watcher slot t p ↔ t = w ∧ p = pid := by
  rw [watcher_iff hc hsound, hwatch]
  constructor
  . rintro ⟨ht, d', hd', hp⟩
    obtain rfl : w = t := Option.some.inj ht
    rw [hd] at hd'
    rw [← Option.some.inj hd', hpid] at hp
    exact ⟨rfl, (Option.some.inj hp).symm⟩
  . rintro ⟨rfl, rfl⟩
    exact ⟨rfl, d, hd, hpid⟩

theorem watcher_of_idle (hc : r.cell? slot = some c) (hsound : c.Sound) (hguarded : c.Guarded)
    (hidle : c.box.holder = none) (hactive : c.box.record.status.isActive = true)
    : ∃ pid t, c.box.record.pid = some pid ∧
      ∀ t' pid', r.Watcher slot t' pid' ↔ t' = t ∧ pid' = pid := by
  cases hwatch : c.box.watch with
  | none =>
    rcases hguarded.unwatched hactive hwatch with ⟨t, op, stage, hholder, -⟩
    rw [hidle] at hholder
    cases hholder
  | some t =>
    rcases hguarded.stands t hwatch with ⟨d, hd⟩
    rcases hsound.watch t d hwatch hd with ⟨pid, hpid, hrecord⟩
    exact ⟨pid, t, hrecord, watcher_of_duty hc hsound hwatch hd hpid⟩

theorem not_watcher_of_inactive (hc : r.cell? slot = some c) (hsound : c.Sound)
    (hinactive : c.box.record.status.isActive = false) (t : TaskId) (pid : Pid)
    : ¬r.Watcher slot t pid := by
  rw [watcher_iff hc hsound]
  rintro ⟨hwatch, -⟩
  rw [hsound.watch_eq_none hinactive] at hwatch
  cases hwatch

theorem record_contend {task : TaskId} {pid : Pid} {result : Except Fault ProcessEnd} (hsound : c.Sound)
    {d : Duty} (hduty : c.duty task = some d) (hd : d.Contends (.notice pid result))
    (hclaim : (c.box.claim task).1 = true) (hwatch : c.box.watch = some task) (fresh : TaskId)
    (now : Moment)
    : c.box.Runs pid ∧
      ∃ record, c.box.record.markTerminated now (c.box.record.status.closing result).1
          (c.box.record.status.closing result).2 = .ok record ∧
        record.status.isTerminal = true ∧
        (((c.assign task (.notice pid result)).withBox task
          fun c => c.notice fresh now task pid result).1.box.record = record) ∧
        (((c.assign task (.notice pid result)).withBox task
          fun c => c.notice fresh now task pid result).1.box.watch = none) ∧
        .release pid ∈ ((c.assign task (.notice pid result)).withBox task
          fun c => c.notice fresh now task pid result).2 := by
  have horderly := (hsound.claim_held hduty hd hclaim).1
  rcases c.box.untouched_claim task with ⟨-, hrecord, hremoved, hwatch'⟩
  have hcases := Box.notices horderly.coherent now task pid result
  rcases horderly.watch task (.notice pid result) (by rw [← hwatch, ← hwatch']) (by simp [Cell.duty_assign])
    with ⟨pid', hpid', hrec⟩
  cases hpid'
  have hactive := horderly.coherent.watch task (by rw [← hwatch, ← hwatch'])
  have hruns := horderly.coherent.runs hactive hrec
  unfold Cell.withBox Cell.notice
  simp only [Cell.assign, hclaim, if_true] at hcases ⊢
  generalize (c.box.claim task).2.noticeEnd now task pid result = out at hcases ⊢
  cases hcases with
  | ignore other => exact absurd ⟨by rw [← hwatch, ← hwatch'], hruns⟩ other
  | @record record watched runs marked ended process =>
    refine ⟨hruns.congr hrecord.symm hremoved.symm, record, by rw [← hrecord]; exact marked, ended, rfl, rfl, ?_⟩
    simp [Cell.performAll, Deed.effects]

theorem step_of_reports (hc : r.cell? slot = some c) {now : Moment} {task : TaskId} {pid : Pid}
    {result : Except Fault ProcessEnd} {e : Event} (h : r.Reports slot now task pid result e)
    : e.slot? r = some slot ∧ ∃ d, c.duty task = some d ∧ d.Contends (.notice pid result) ∧
      c.step r.limits r.nextTask slot e = (c.assign task (.notice pid result)).withBox task
        fun c => c.notice r.nextTask now task pid result := by
  have hduty := (cell?_eq_some.mp hc).2
  cases h with
  | waited duty =>
    have hd : c.duty task = some (.notice pid result) := by
      rw [← hduty, duty?_eq_some, duty]
    refine ⟨by simp [Event.slot?, duty], _, hd, ⟨rfl, .inl rfl⟩, ?_⟩
    rw [Cell.assign_self hd]
    simp only [Cell.step, Cell.turn, hd]
  | @ended reply duty whole learns =>
    have hd : c.duty task = some (.watch pid) := by
      rw [← hduty, duty?_eq_some, duty]
    refine ⟨by simp [Event.slot?, duty], _, hd, ⟨rfl, .inr ⟨pid, result, rfl, rfl⟩⟩, ?_⟩
    simp only [Cell.step, Cell.reply, hd, learns]
    cases reply with
    | panicked message => exact absurd rfl (whole message)
    | _ => simp only [Cell.turn, Cell.duty_assign, if_true]

theorem records_of_reports (h : r.Tidy) (hc : r.cell? slot = some c) (hsound : c.Sound) {now : Moment}
    {task : TaskId} {pid : Pid} {result : Except Fault ProcessEnd} {e : Event}
    (hreports : r.Reports slot now task pid result e) (hclaim : (c.box.claim task).1 = true)
    (hwatch : c.box.watch = some task)
    : r.Records slot c.box now pid result e := by
  rcases step_of_reports hc hreports with ⟨hslot, d, hduty, hd, hstep⟩
  have hchanges := changes_step h hc hslot
  rcases record_contend hsound hduty hd hclaim hwatch r.nextTask now
    with ⟨hruns, record, hmarked, hended, hrecord, hnone, hrelease⟩
  rw [hstep] at hchanges
  refine ⟨hruns.listed, hruns.pid, record, _, hmarked, hended, hchanges.1.box, hrecord, hnone, ?_⟩
  rw [hchanges.2]
  exact hrelease

end Watch

/--
No end of a process is lost: whenever nobody has hold of a box, the box has exactly one watcher if it has a
process, and none if it has not, and a watcher that gets hold of the box always puts the end on record.
-/
theorem exits_are_kept {limits : Limits} {r : Registry} (h : Reachable limits OnlyLaunchesBreakOff r)
    {slot : Slot} {b : Box} (hb : r.boxes[slot]? = some b)
    : (b.holder = none →
        (b.record.status.isActive = true →
          b.removed = false ∧ ∃ pid t, b.record.pid = some pid ∧
            ∀ t' pid', r.Watcher slot t' pid' ↔ t' = t ∧ pid' = pid) ∧
        (b.record.status.isActive = false ∨ b.removed = true → ∀ t pid, ¬r.Watcher slot t pid)) ∧
      ∀ now task pid result e, r.Reports slot now task pid result e → (b.claim task).1 = true →
        b.watch = some task → r.Records slot b now pid result e := by
  rcases exists_cell? hb with ⟨c, hc, rfl⟩
  have htidy := tidy_of_reachable h
  have hsound := sound_of_reachable h hc
  have hguarded := guarded_of_reachable h hc
  refine ⟨?_, ?_⟩
  . intro hidle
    refine ⟨?_, ?_⟩
    . intro hactive
      rcases hsound.coherent.exists_runs hactive with ⟨pid, hruns⟩
      exact ⟨hruns.listed, watcher_of_idle hc hsound hguarded hidle hactive⟩
    . intro hend
      apply not_watcher_of_inactive hc hsound
      cases hend with
      | inl hinactive => exact hinactive
      | inr hremoved => exact hsound.coherent.removed hremoved
  . intro now task pid result e hreports hclaim hwatch
    exact records_of_reports htidy hc hsound hreports hclaim hwatch

def launchAndWatch : List Event :=
  [.create { image := "alpine" } ⟨0, 0⟩ 1 0, .begin 0 .start, .turn ⟨0, 0⟩ 0, .reply ⟨0, 0⟩ 0 (.launched 7),
    .turn ⟨0, 0⟩ 1]

theorem reachable_launchAndWatch : Reachable {} OnlyLaunchesBreakOff (({} : Registry).after launchAndWatch) := by
  apply Reachable.after .start
  simp [launchAndWatch, OnlyLaunchesBreakOff]

theorem exits_are_kept_launchAndWatch
    : let r := ({} : Registry).after launchAndWatch
      ∃ b, r.boxes[0]? = some b ∧ b.holder = none ∧ b.record.status = .running ∧
        (∃ pid t, b.record.pid = some pid ∧ ∀ t' pid', r.Watcher 0 t' pid' ↔ t' = t ∧ pid' = pid) ∧
        r.Records 0 b ⟨9, 0⟩ 7 (.ok (.exited 0)) (.reply ⟨9, 0⟩ 1 (.ended (.exited 0))) := by
  have h := @exits_are_kept _ _ reachable_launchAndWatch 0 _ rfl
  refine ⟨_, rfl, rfl, rfl, ((h.1 rfl).1 rfl).2, ?_⟩
  exact h.2 ⟨9, 0⟩ 1 7 _ _ (.ended rfl (by simp) rfl) rfl rfl

end Registry

end BoxRegistry
