import BoxRegistry.Proofs.Registry.Steps

namespace BoxRegistry

open Time (Moment)

namespace Cell

variable {c : Cell}

theorem Orderly.move (h : c.Orderly) {op : Operation} {origin : Option Stage} {m : Move}
    (hm : op.Moves c.box origin m) {fresh : TaskId} (hfresh : c.duty fresh = none)
    : (({ c with box := m.box } : Cell).performAll fresh m.deeds).1.Orderly ∧
      (({ c with box := m.box } : Cell).performAll fresh m.deeds).1.box.holder = c.box.holder ∧
      ∀ stage, m.next = .wait stage →
        stage.Fits op (({ c with box := m.box } : Cell).performAll fresh m.deeds).1.box := by
  cases hm with
  | refuse f turns => exact ⟨h, rfl, by simp [Box.refuse]⟩
  | crash message calm => exact ⟨h, rfl, by simp [Box.crash]⟩
  | set free fits =>
    refine ⟨h, rfl, ?_⟩
    intro stage hstage
    cases hstage
    exact fits
  | beginStop stage stops fits =>
    refine ⟨h.disarm, rfl, ?_⟩
    intro stage hstage
    cases hstage
    exact fits
  | press stops fits =>
    refine ⟨h, rfl, ?_⟩
    intro stage hstage
    cases hstage
    exact fits
  | @launch record pid start created listed running process =>
    have hwatch := h.watch_eq_none (by rw [created]; rfl)
    have hchange : Orderly { c with box := { c.box with record } } :=
      h.change_unwatched (b := { c.box with record }) hwatch ⟨rfl, rfl, rfl, rfl⟩
        (by simp [process, running, Status.isActive]) (by simp [listed])
    exact ⟨hchange.arm hwatch hfresh process, rfl, by simp⟩
  | @failLaunch record message start created listed failed process =>
    refine ⟨?_, rfl, by simp⟩
    exact h.change_unwatched (b := { c.box with record }) (h.watch_eq_none (by rw [created]; rfl))
      ⟨rfl, rfl, rfl, rfl⟩ (by simp [process, failed, Status.isActive]) (by simp [listed])
  | @turnOver record pid origin runs active process turns =>
    refine ⟨?_, rfl, by simp⟩
    -- The process stays the same one, so whoever watches the box still does so for it.
    apply h.change (b := { c.box with record }) ⟨rfl, rfl, rfl, rfl⟩
    . exact ⟨by simp [process, active], by simp [runs.listed], by simp [active]⟩
    . intro t _
      rw [runs.pid]
      exact process
  | @stop record pid grace origin stops runs unwatched stopped process ends =>
    refine ⟨?_, rfl, by simp⟩
    exact h.change_unwatched (b := { c.box with record, sample := none }) unwatched ⟨rfl, rfl, rfl, rfl⟩
      (by simp [process, stopped, Status.isActive]) (by simp [runs.listed])
  | @stopAndRemove record pid origin removes runs unwatched stopped process ends =>
    refine ⟨?_, rfl, by simp [Box.unlist]⟩
    have hchange : Orderly { c with box := { c.box with record, sample := none, removed := true } } :=
      h.change_unwatched (b := { c.box with record, sample := none, removed := true }) unwatched
        ⟨rfl, rfl, rfl, rfl⟩ (by simp [process, stopped, Status.isActive]) (by simp [stopped, Status.isActive])
    exact hchange.disarm
  | @rearm pid f stops runs unwatched => exact ⟨h.arm unwatched hfresh runs.pid, rfl, by simp [Box.refuse]⟩
  | @remove force removes inactive listed =>
    refine ⟨?_, rfl, by simp [Box.unlist]⟩
    have hchange : Orderly { c with box := { c.box with removed := true } } :=
      h.change_unwatched (b := { c.box with removed := true }) (h.watch_eq_none inactive) ⟨rfl, rfl, rfl, rfl⟩
        h.coherent.process fun _ => inactive
    exact hchange.disarm

theorem Orderly.apply (h : c.Orderly) {task : TaskId} (hholder : c.box.holder = some task) {d : Duty}
    (hduty : c.duty task = some d) (hvigil : d.isVigil = false) (hd : d.watched? = none)
    {fresh : TaskId} (hfresh : c.duty fresh = none) (hlt : task < fresh) {op : Operation}
    {origin : Option Stage} {m : Move} (hm : op.Moves c.box origin m) (limits : Limits)
    : (c.apply limits fresh task op m).1.Sound := by
  have hmove := h.move hm hfresh
  have htask := Registry.Cell.duty_performAll (c := { c with box := m.box }) hduty hvigil hlt m.deeds
  rw [hholder] at hmove
  have happlies := c.applies limits fresh task op m
  generalize c.apply limits fresh task op m = out at happlies ⊢
  cases happlies with
  | waits next => exact hmove.1.wait hmove.2.1 htask hd (hmove.2.2 _ next)
  | leaves result quits => exact hmove.1.leave hmove.2.1

theorem Orderly.work_apply (h : c.Orderly) {task : TaskId} (hholder : c.box.holder = some task)
    {fresh : TaskId} (hfresh : c.duty fresh = none) {op : Operation} {origin : Option Stage} {m : Move}
    (hm : op.Moves c.box origin m) (limits : Limits) {t : TaskId} {op' : Operation} {stage : Stage}
    (ht : (c.apply limits fresh task op m).1.duty t = some (.work op' stage))
    : t = task ∧ op' = op ∧ m.next = .wait stage := by
  have hmove := h.move hm hfresh
  rw [hholder] at hmove
  have happlies := c.applies limits fresh task op m
  generalize c.apply limits fresh task op m = out at happlies ht
  cases happlies with
  | waits next =>
    rcases duty_assign_eq_some.mp ht with ⟨heq, hwork⟩ | ⟨hne, ht⟩
    . cases hwork
      exact ⟨heq, rfl, next⟩
    . have := hmove.1.worker t op' stage ht
      rw [hmove.2.1] at this
      exact absurd (Option.some.inj this).symm hne
  | leaves result quits => exact absurd ht (hmove.1.not_work_leave hmove.2.1 t op' stage)

end Cell

inductive Box.Notices (b : Box) (now : Moment) (task : TaskId) (pid : Pid) (result : Except Fault ProcessEnd) :
    Box × List Deed → Prop where
  | ignore (other : ¬(b.watch = some task ∧ b.Runs pid)) : Notices b now task pid result (b, [])
  | record {record : Record} (watched : b.watch = some task) (runs : b.Runs pid)
    (marked : b.record.markTerminated now (b.record.status.closing result).1
      (b.record.status.closing result).2 = .ok record)
    (ended : record.status.isTerminal = true) (process : record.pid = none) :
    Notices b now task pid result
      ({ b with record, sample := none }, [.disarm, .release pid, .count (.ended record.status true)])

theorem Status.apply_closing {s : Status} (h : s.isActive = true) (result : Except Fault ProcessEnd)
    : ∃ status, s.apply (s.closing result).1 = .ok status ∧ status.isTerminal = true := by
  cases s with
  | running =>
    cases result with
    | ok how =>
      rcases how with ⟨code, signal⟩
      cases code with
      | some code => exact ⟨.exited, rfl, rfl⟩
      | none => exact ⟨.failed, rfl, rfl⟩
    | error f => exact ⟨.failed, rfl, rfl⟩
  | paused =>
    cases result with
    | ok how => exact ⟨.stopped, rfl, rfl⟩
    | error f => exact ⟨.stopped, rfl, rfl⟩
  | _ => contradiction

theorem Box.notices {b : Box} (h : b.Coherent) (now : Moment) (task : TaskId) (pid : Pid)
    (result : Except Fault ProcessEnd)
    : b.Notices now task pid result (b.noticeEnd now task pid result) := by
  unfold noticeEnd
  split
  . next hother =>
    apply Notices.ignore
    intro hown
    rcases hother with hwatch | hremoved | hpid
    . exact hwatch hown.1
    . rw [hown.2.listed] at hremoved
      cases hremoved
    . exact hpid hown.2.pid
  . next hown =>
    simp only [not_or, Decidable.not_not, Bool.not_eq_true] at hown
    rcases hown with ⟨hwatch, hremoved, hpid⟩
    have hactive : b.record.status.isActive = true := by
      rw [← h.process, hpid]
      rfl
    rcases Status.apply_closing hactive result with ⟨status, happly, hterminal⟩
    have := b.record.markTerminated_eq_ok now happly hterminal (b.record.status.closing result).2
    simp only [this]
    exact .record hwatch ⟨hremoved, hactive, hpid⟩ this hterminal rfl

namespace Cell

variable {c : Cell}

theorem Orderly.note_end (h : c.Orderly) (fresh : TaskId) (now : Moment) (task : TaskId) (pid : Pid)
    (result : Except Fault ProcessEnd)
    : let out := c.box.noticeEnd now task pid result
      (({ c with box := out.1 } : Cell).performAll fresh out.2).1.Orderly ∧
        (({ c with box := out.1 } : Cell).performAll fresh out.2).1.box.holder = c.box.holder := by
  have hcases := Box.notices h.coherent now task pid result
  dsimp only
  generalize c.box.noticeEnd now task pid result = out at hcases ⊢
  cases hcases with
  | ignore other => exact ⟨h, rfl⟩
  | @record record watched runs marked ended process =>
    have hinactive := Status.isActive_of_isTerminal ended
    refine ⟨?_, rfl⟩
    apply h.disarm.change (b := { c.box with record, sample := none, watch := none }) ⟨rfl, rfl, rfl, rfl⟩
    . exact ⟨by simp [process, hinactive], by simp [hinactive], by simp⟩
    . simp

theorem Orderly.notice_end (h : c.Orderly) {task : TaskId} (hholder : c.box.holder = some task)
    (fresh : TaskId) (now : Moment) (pid : Pid) (result : Except Fault ProcessEnd)
    : (c.notice fresh now task pid result).1.Sound := by
  have hnote := h.note_end fresh now task pid result
  exact hnote.1.leave (by rw [hnote.2, hholder])

theorem Orderly.not_work_notice (h : c.Orderly) {task : TaskId} (hholder : c.box.holder = some task)
    (fresh : TaskId) (now : Moment) (pid : Pid) (result : Except Fault ProcessEnd) (t : TaskId)
    (op : Operation) (stage : Stage)
    : (c.notice fresh now task pid result).1.duty t ≠ some (.work op stage) := by
  have hnote := h.note_end fresh now task pid result
  exact hnote.1.not_work_leave (by rw [hnote.2, hholder]) t op stage

theorem Sound.set_aside (h : c.Sound) {task : TaskId}
    (htask : ∀ d, c.duty task = some d → d.isVigil = true) {duty : Option Duty}
    (hworks : ∀ op stage, duty ≠ some (.work op stage)) (hown : ∀ d, duty = some d → d.Placed c.box task)
    : Sound { c with duty := fun t => if t = task then duty else c.duty t } := by
  constructor
  case toOrderly =>
    apply h.toOrderly.replace h.coherent h.toOrderly.lined
    . exact fun hin => absurd hin (h.out_of_line htask)
    . exact fun t _ ht => ht
    . exact hown
    . exact fun t _ d hd => hd
  case fits =>
    intro t op stage ht
    dsimp only at ht
    split at ht
    . exact absurd ht (hworks op stage)
    . exact h.fits t op stage ht

structure Below (c : Cell) (next : TaskId) : Prop where
  duty : ∀ t d, c.duty t = some d → t < next
  watch : ∀ t, c.box.watch = some t → t < next

theorem Below.fresh {next : TaskId} (h : c.Below next) : c.duty next = none := by
  rw [Option.eq_none_iff_forall_ne_some]
  intro d hd
  exact Nat.lt_irrefl _ (h.duty next d hd)

theorem Sound.step (h : c.Sound) {fresh : TaskId} (hbelow : c.Below fresh) (limits : Limits) (slot : Slot)
    (e : Registry.Event)
    : (c.step limits fresh slot e).1.Sound := by
  have hsteps := c.steps limits fresh slot e
  generalize c.step limits fresh slot e = out at hsteps
  cases hsteps with
  | rests rests => exact h
  | begins op =>
    refine h.set_aside (by simp [hbelow.fresh]) (by simp) ?_
    rintro d ⟨⟩
    have hunwatched : c.box.watch ≠ some fresh := fun hwatch => Nat.lt_irrefl _ (hbelow.watch fresh hwatch)
    exact ⟨fun _ => rfl, fun _ => rfl, by simp, by simp, by simp [Duty.isVigil], fun hwatch => absurd hwatch hunwatched⟩
  | @posts now task pid duty =>
    refine h.set_aside (by simp [duty, Duty.isVigil]) (by simp) ?_
    rintro d ⟨⟩
    have hplaced := h.toOrderly.placed duty
    exact ⟨hplaced.holder, hplaced.queue, by simp, by simp, hplaced.vigil, hplaced.watch⟩
  | queues arrives unclaimed =>
    rcases arrives.exists_contends with ⟨d, hduty, hd⟩
    exact h.claim_aside hduty hd unclaimed
  | @enters now task op duty claimed =>
    rcases h.claim_enter duty claimed with ⟨horderly, hholder⟩
    exact horderly.apply hholder duty rfl rfl hbelow.fresh (hbelow.duty task _ duty) (op.moves_enter _) limits
  | @proceeds now task reply op stage duty =>
    exact h.toOrderly.apply (h.worker task op stage duty) duty rfl rfl hbelow.fresh (hbelow.duty task _ duty)
      (op.moves_proceed (h.fits task op stage duty) limits now reply) limits
  | @reports e now task pid result arrives claimed =>
    rcases h.claim_arrives arrives claimed with ⟨horderly, hholder⟩
    exact horderly.notice_end hholder fresh now pid result
  | quits duty =>
    exact h.set_aside (by simp [duty, Duty.isVigil]) (by simp) (by simp)
  | @samples record reading sampled =>
    have hcoherent : ({ c.box with sample := reading <|> c.box.sample } : Box).Coherent :=
      ⟨h.coherent.process, h.coherent.removed, h.coherent.watch⟩
    refine ⟨h.toOrderly.change ⟨rfl, rfl, rfl, rfl⟩ hcoherent fun _ _ => rfl, ?_⟩
    intro t op stage ht
    exact (h.fits t op stage ht).congr rfl rfl rfl

end Cell

namespace Registry

theorem below_of_tidy {r : Registry} (h : r.Tidy) {slot : Slot} {c : Cell} (hc : r.cell? slot = some c)
    : c.Below r.nextTask where
  duty _ _ ht := lt_nextTask h hc ht
  watch t ht := (h.watch slot c.box t (cell?_eq_some.mp hc).1 ht).1

theorem sound_of_reachable {limits : Limits} {allowed : Registry → Event → Prop} {r : Registry}
    (h : Reachable limits allowed r) {slot : Slot} {c : Cell} (hc : r.cell? slot = some c)
    : c.Sound := by
  refine cell_of_reachable (P := Cell.Sound) Cell.sound_new ?_ h slot c hc
  intro r slot c e htidy hc _ hsound
  exact hsound.step (below_of_tidy htidy hc) r.limits slot e

section Tracked

variable {σ : Type} {inv : Limits → Cell → σ → Prop} {zero : σ}

structure Tracked (inv : Limits → Cell → σ → Prop) (zero : σ) (r : Registry) (slot : Slot) (noted : σ) : Prop where
  tidy : r.Tidy
  cell : ∀ c, r.cell? slot = some c → c.Sound ∧ inv r.limits c noted
  absent : r.cell? slot = none → noted = zero

theorem tracked_start (inv : Limits → Cell → σ → Prop) (zero : σ) (limits : Limits) (slot : Slot)
    : Tracked inv zero { limits } slot zero where
  tidy := tidy_start limits
  cell c hc := by cases hc
  absent _ := rfl

theorem Tracked.step {r : Registry} {slot : Slot} {noted noted' : σ} (h : Tracked inv zero r slot noted)
    (e : Event) (hnew : ∀ spec, inv r.limits ⟨.new spec, fun _ => none⟩ zero)
    (hnone : r.cell? slot = none → noted' = noted)
    (hstep : ∀ c, r.cell? slot = some c → c.Sound → c.Below r.nextTask → inv r.limits c noted →
      inv r.limits (c.step r.limits r.nextTask slot e).1 noted')
    : Tracked inv zero (r.step e).1 slot noted' := by
  have hevolves := evolves h.tidy e
  constructor
  . exact hevolves.tidy
  . intro c' hc'
    rw [hevolves.limits]
    cases hc : r.cell? slot with
    | none =>
      -- The event creates the box, so what was noted is still nothing.
      rcases hevolves.added slot c' hc hc' with ⟨spec, rfl⟩
      rw [hnone hc, h.absent hc]
      exact ⟨Cell.sound_new spec, hnew spec⟩
    | some c =>
      rcases h.cell c hc with ⟨hsound, hinv⟩
      have hbelow := below_of_tidy h.tidy hc
      rw [hevolves.cell slot c hc] at hc'
      rw [← Option.some.inj hc']
      exact ⟨hsound.step hbelow r.limits slot e, hstep c hc hsound hbelow hinv⟩
  . intro hgone
    cases hc : r.cell? slot with
    | none => rw [hnone hc, h.absent hc]
    | some c =>
      rw [hevolves.cell slot c hc] at hgone
      cases hgone

end Tracked

end Registry

end BoxRegistry
