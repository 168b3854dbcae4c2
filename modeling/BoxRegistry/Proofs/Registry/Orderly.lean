import BoxRegistry.Proofs.Registry.Locality

/-!
This module contains the invariant of a box and its tasks: who has hold of the box and who waits for it,
what each stage of an operation may rely on, and which process the watch is for. It is kept by all that
tasks do with a box: to claim it, to change its record, to watch it or to end the watch, to wait at a stage
and to leave.
-/

namespace BoxRegistry

open Time (Moment)

structure Box.Coherent (b : Box) : Prop where
  process : b.record.pid.isSome = b.record.status.isActive
  removed : b.removed = true → b.record.status.isActive = false
  watch : ∀ t, b.watch = some t → b.record.status.isActive = true

def Duty.watched? : Duty → Option Pid
  | post pid | watch pid | notice pid _ => some pid
  | enter _ | work .. => none

def Duty.contends : Duty → Bool
  | enter _ | notice .. => true
  | work .. | post _ | watch _ => false

def Duty.Contends (d d' : Duty) : Prop :=
  d'.contends = true ∧ (d' = d ∨ ∃ pid result, d = .watch pid ∧ d' = .notice pid result)

/--
The tasks of a box are where they should be: one has hold of the box at most, which alone carries out an
operation, those that contend for it stand in line, and a task that waits for the end of a process stands
as the watch on the box, whose process that is.
-/
structure Cell.Orderly (c : Cell) : Prop where
  coherent : c.box.Coherent
  holder : ∀ t, c.box.holder = some t → ∃ d, c.duty t = some d ∧ d.isVigil = false
  queue : ∀ t ∈ c.box.queue, ∃ d, c.duty t = some d ∧ d.contends = true
  nodup : c.box.queue.Nodup
  apart : ∀ t ∈ c.box.queue, c.box.holder ≠ some t
  idle : c.box.holder = none → c.box.queue = []
  worker : ∀ t op stage, c.duty t = some (.work op stage) → c.box.holder = some t
  notice : ∀ t pid result, c.duty t = some (.notice pid result) → c.box.holder = some t ∨ t ∈ c.box.queue
  vigil : ∀ t d, c.duty t = some d → d.isVigil = true → c.box.watch = some t
  watch : ∀ t d, c.box.watch = some t → c.duty t = some d →
    ∃ pid, d.watched? = some pid ∧ c.box.record.pid = some pid

structure Cell.Sound (c : Cell) : Prop extends c.Orderly where
  fits : ∀ t op stage, c.duty t = some (.work op stage) → stage.Fits op c.box

theorem Box.Runs.congr {b b' : Box} {pid : Pid} (h : b.Runs pid) (hrecord : b'.record = b.record)
    (hremoved : b'.removed = b.removed)
    : b'.Runs pid :=
  ⟨by rw [hremoved, h.listed], by rw [hrecord, h.active], by rw [hrecord, h.pid]⟩

theorem Box.Runs.eq {b : Box} {pid pid' : Pid} (h : b.Runs pid) (h' : b.Runs pid') : pid' = pid :=
  Option.some.inj (h'.pid.symm.trans h.pid)

theorem Box.Coherent.runs {b : Box} (h : b.Coherent) (hactive : b.record.status.isActive = true) {pid : Pid}
    (hpid : b.record.pid = some pid)
    : b.Runs pid := by
  refine ⟨?_, hactive, hpid⟩
  cases hremoved : b.removed with
  | false => rfl
  | true =>
    rw [h.removed hremoved] at hactive
    cases hactive

theorem Box.Coherent.runs_of_pid {b : Box} (h : b.Coherent) {pid : Pid} (hpid : b.record.pid = some pid)
    : b.Runs pid := by
  have hactive : b.record.status.isActive = true := by
    rw [← h.process, hpid]
    rfl
  exact h.runs hactive hpid

theorem Box.Coherent.exists_runs {b : Box} (h : b.Coherent) (hactive : b.record.status.isActive = true)
    : ∃ pid, b.Runs pid := by
  have hpid := h.process
  rw [hactive, Option.isSome_iff_exists] at hpid
  rcases hpid with ⟨pid, hpid⟩
  exact ⟨pid, h.runs hactive hpid⟩

theorem Stage.Fits.congr {op : Operation} {b b' : Box} {stage : Stage} (h : stage.Fits op b)
    (hrecord : b'.record = b.record) (hremoved : b'.removed = b.removed) (hwatch : b'.watch = b.watch)
    : stage.Fits op b' := by
  cases stage with
  | launching => exact ⟨h.1, by rw [hrecord, h.2.1], by rw [hremoved, h.2.2]⟩
  | pausing pid => exact ⟨h.1, by rw [hrecord, h.2.1], h.2.2.congr hrecord hremoved⟩
  | resuming pid => exact ⟨h.1, by rw [hrecord, h.2.1], h.2.2.congr hrecord hremoved⟩
  | _ => exact ⟨h.1, h.2.1.congr hrecord hremoved, by rw [hwatch, h.2.2]⟩

theorem Box.mem_handOver {b : Box} {t : TaskId} (h : t ∈ b.queue)
    : b.handOver.holder = some t ∨ t ∈ b.handOver.queue := by
  unfold handOver
  cases hqueue : b.queue with
  | nil => simp [hqueue] at h
  | cons first rest =>
    rw [hqueue, List.mem_cons] at h
    rcases h with rfl | h
    . exact .inl rfl
    . exact .inr h

theorem Box.holder_handOver_ne {b : Box} (h : b.queue.Nodup) {t : TaskId} (ht : t ∈ b.handOver.queue)
    : b.handOver.holder ≠ some t := by
  intro heq
  unfold handOver at ht heq
  cases hqueue : b.queue with
  | nil => simp [hqueue] at ht
  | cons first rest =>
    simp only [hqueue, List.tail_cons, List.head?_cons, Option.some.injEq] at ht heq
    rw [hqueue, List.nodup_cons, heq] at h
    exact h.1 ht

structure Duty.Placed (d : Duty) (b : Box) (t : TaskId) : Prop where
  holder : b.holder = some t → d.isVigil = false
  queue : t ∈ b.queue → d.contends = true
  worker : ∀ op stage, d = .work op stage → b.holder = some t
  notice : ∀ pid result, d = .notice pid result → b.holder = some t ∨ t ∈ b.queue
  vigil : d.isVigil = true → b.watch = some t
  watch : b.watch = some t → ∃ pid, d.watched? = some pid ∧ b.record.pid = some pid

structure Box.Lined (b : Box) : Prop where
  nodup : b.queue.Nodup
  apart : ∀ t ∈ b.queue, b.holder ≠ some t
  idle : b.holder = none → b.queue = []

namespace Duty

variable {d : Duty}

theorem isVigil_of_contends (h : d.contends = true) : d.isVigil = false := by
  cases d <;> first | rfl | contradiction

-- A task that contends is about the process that it was about before.
theorem watched_of_contends {d' : Duty} (h : d.Contends d') : d'.watched? = d.watched? := by
  rcases h.2 with rfl | ⟨pid, result, rfl, rfl⟩ <;> rfl

theorem Placed.congr {b b' : Box} {t : TaskId} (h : d.Placed b t) (hholder : b'.holder = some t ↔ b.holder = some t)
    (hqueue : t ∈ b'.queue ↔ t ∈ b.queue) (hwatch : b'.watch = some t ↔ b.watch = some t)
    (hpid : b'.watch = some t → b'.record.pid = b.record.pid)
    : d.Placed b' t where
  holder ht := h.holder (hholder.mp ht)
  queue ht := h.queue (hqueue.mp ht)
  worker op stage hd := hholder.mpr (h.worker op stage hd)
  notice pid result hd := (h.notice pid result hd).imp hholder.mpr hqueue.mpr
  vigil hd := hwatch.mpr (h.vigil hd)
  watch ht := by
    rw [hpid ht]
    exact h.watch (hwatch.mp ht)

end Duty

namespace Cell

variable {c : Cell}

theorem sound_new (spec : Spec) : Sound ⟨.new spec, fun _ => none⟩ where
  coherent := ⟨rfl, by simp [Box.new], by simp [Box.new]⟩
  holder := by simp [Box.new]
  queue := by simp [Box.new]
  nodup := .nil
  apart := by simp [Box.new]
  idle _ := rfl
  worker := by simp
  notice := by simp
  vigil := by simp
  watch := by simp
  fits := by simp

theorem duty_assign (c : Cell) (task : TaskId) (d : Duty) (t : TaskId)
    : (c.assign task d).duty t = if t = task then some d else c.duty t := rfl

theorem duty_assign_eq_some {task t : TaskId} {d d' : Duty}
    : (c.assign task d).duty t = some d' ↔ t = task ∧ d' = d ∨ t ≠ task ∧ c.duty t = some d' := by
  rw [duty_assign]
  by_cases heq : t = task
  . simp [heq, eq_comm]
  . simp [heq]

theorem assign_self {task : TaskId} {d : Duty} (h : c.duty task = some d) : c.assign task d = c := by
  ext t d'
  . rfl
  . rw [duty_assign]
    split
    . next heq => rw [heq, h]
    . rfl

theorem work_of_assign {task t : TaskId} {d : Duty} {op : Operation} {stage : Stage}
    (hd : ∀ op stage, d ≠ .work op stage) (h : (c.assign task d).duty t = some (.work op stage))
    : c.duty t = some (.work op stage) := by
  rcases duty_assign_eq_some.mp h with ⟨-, heq⟩ | ⟨-, h⟩
  . exact absurd heq.symm (hd op stage)
  . exact h

namespace Orderly

theorem lined (h : c.Orderly) : c.box.Lined :=
  ⟨h.nodup, h.apart, h.idle⟩

theorem placed (h : c.Orderly) {t : TaskId} {d : Duty} (hduty : c.duty t = some d) : d.Placed c.box t where
  holder ht := by
    rcases h.holder t ht with ⟨d', hd', hv⟩
    rwa [Option.some.inj (hduty.symm.trans hd')]
  queue ht := by
    rcases h.queue t ht with ⟨d', hd', hc⟩
    rwa [Option.some.inj (hduty.symm.trans hd')]
  worker op stage hd := h.worker t op stage (by rw [hduty, hd])
  notice pid result hd := h.notice t pid result (by rw [hduty, hd])
  vigil hd := h.vigil t d hduty hd
  watch ht := h.watch t d ht hduty

theorem exists_duty (h : c.Orderly) {t : TaskId} (ht : c.box.holder = some t ∨ t ∈ c.box.queue)
    : ∃ d, c.duty t = some d ∧ d.isVigil = false := by
  rcases ht with ht | ht
  . exact h.holder t ht
  . rcases h.queue t ht with ⟨d, hd, hc⟩
    exact ⟨d, hd, Duty.isVigil_of_contends hc⟩

theorem out_of_line (h : c.Orderly) {task : TaskId} (htask : ∀ d, c.duty task = some d → d.isVigil = true)
    : ¬(c.box.holder = some task ∨ task ∈ c.box.queue) := by
  intro hin
  rcases h.exists_duty hin with ⟨d, hd, hv⟩
  rw [htask d hd] at hv
  cases hv

-- A box is in order if the line is and each task stands where it should.
theorem of_placed (hcoherent : c.box.Coherent) (hlined : c.box.Lined)
    (hpresent : ∀ t, c.box.holder = some t ∨ t ∈ c.box.queue → ∃ d, c.duty t = some d)
    (hplaced : ∀ t d, c.duty t = some d → d.Placed c.box t)
    : c.Orderly where
  coherent := hcoherent
  holder t ht := by
    rcases hpresent t (.inl ht) with ⟨d, hd⟩
    exact ⟨d, hd, (hplaced t d hd).holder ht⟩
  queue t ht := by
    rcases hpresent t (.inr ht) with ⟨d, hd⟩
    exact ⟨d, hd, (hplaced t d hd).queue ht⟩
  nodup := hlined.nodup
  apart := hlined.apart
  idle := hlined.idle
  worker t op stage ht := (hplaced t _ ht).worker op stage rfl
  notice t pid result ht := (hplaced t _ ht).notice pid result rfl
  vigil t d ht hd := (hplaced t d ht).vigil hd
  watch t d ht hd := (hplaced t d hd).watch ht

/--
A task gets another duty, or none, while the box changes. It is enough to say how that task stands afterwards, and that
the others stand as they did.
-/
theorem replace (h : c.Orderly) {b : Box} {task : TaskId} {duty : Option Duty} (hcoherent : b.Coherent) (hlined : b.Lined)
    (hpresent : b.holder = some task ∨ task ∈ b.queue → duty.isSome)
    (hothers : ∀ t ≠ task, b.holder = some t ∨ t ∈ b.queue → c.box.holder = some t ∨ t ∈ c.box.queue)
    (hown : ∀ d, duty = some d → d.Placed b task)
    (hplaced : ∀ t ≠ task, ∀ d : Duty, d.Placed c.box t → d.Placed b t)
    : Orderly { box := b, duty := fun t => if t = task then duty else c.duty t } := by
  apply of_placed hcoherent hlined
  . intro t ht
    by_cases heq : t = task
    . subst heq
      simpa using Option.isSome_iff_exists.mp (hpresent ht)
    . rcases h.exists_duty (hothers t heq ht) with ⟨d, hd, -⟩
      exact ⟨d, by simp [heq, hd]⟩
  . intro t d hd
    by_cases heq : t = task
    . subst heq
      exact hown d (by simpa using hd)
    . exact hplaced t heq d (h.placed (by simpa [heq] using hd))

theorem change (h : c.Orderly) {b : Box} (hb : c.box.Alike b) (hcoherent : b.Coherent)
    (hpid : ∀ t, b.watch = some t → b.record.pid = c.box.record.pid)
    : Orderly { c with box := b } := by
  apply of_placed hcoherent
  . exact ⟨by rw [hb.queue]; exact h.nodup, by rw [hb.queue, hb.holder]; exact h.apart,
      by rw [hb.queue, hb.holder]; exact h.idle⟩
  . intro t ht
    rw [hb.holder, hb.queue] at ht
    rcases h.exists_duty ht with ⟨d, hd, -⟩
    exact ⟨d, hd⟩
  . intro t d ht
    exact (h.placed ht).congr (by rw [hb.holder]) (by rw [hb.queue]) (by rw [hb.watch]) (hpid t)

theorem watch_eq_none (h : c.Orderly) (hinactive : c.box.record.status.isActive = false) : c.box.watch = none := by
  cases hw : c.box.watch with
  | none => rfl
  | some t =>
    rw [h.coherent.watch t hw] at hinactive
    cases hinactive

theorem change_unwatched (h : c.Orderly) (hwatch : c.box.watch = none) {b : Box} (hb : c.box.Alike b)
    (hprocess : b.record.pid.isSome = b.record.status.isActive)
    (hremoved : b.removed = true → b.record.status.isActive = false)
    : Orderly { c with box := b } := by
  have hwatch' : b.watch = none := by rw [hb.watch, hwatch]
  apply h.change hb ⟨hprocess, hremoved, by simp [hwatch']⟩
  simp [hwatch']

theorem duty_disarm (c : Cell) (t : TaskId) {d : Duty}
    : c.disarm.duty t = some d ↔ c.duty t = some d ∧ (d.isVigil = true → c.box.watch ≠ some t) := by
  simp only [disarm]
  split
  . next h =>
    rcases h with ⟨hwatch, hvigil⟩
    simp only [reduceCtorEq, false_iff]
    intro hd
    simp only [hd.1, Option.any_some] at hvigil
    exact hd.2 hvigil hwatch
  . next h =>
    constructor
    . intro hd
      refine ⟨hd, ?_⟩
      intro hvigil hwatch
      exact h ⟨hwatch, by simp [hd, hvigil]⟩
    . exact fun hd => hd.1

theorem disarm (h : c.Orderly) : c.disarm.Orderly := by
  apply of_placed
  . exact ⟨h.coherent.process, h.coherent.removed, by simp [Cell.disarm]⟩
  . exact ⟨h.nodup, h.apart, h.idle⟩
  . intro t ht
    rcases h.exists_duty ht with ⟨d, hd, hv⟩
    exact ⟨d, (duty_disarm c t).mpr ⟨hd, by simp [hv]⟩⟩
  . intro t d ht
    rw [duty_disarm] at ht
    have hplaced := h.placed ht.1
    exact { hplaced with
      vigil := fun hd => absurd (hplaced.vigil hd) (ht.2 hd)
      watch := by simp [Cell.disarm] }

theorem disarm_of_unwatched (hwatch : c.box.watch = none) : c.disarm = c := by
  ext t d
  . rw [Cell.disarm, ← hwatch]
  . rw [duty_disarm]
    simp [hwatch]

theorem arm (h : c.Orderly) (hwatch : c.box.watch = none) {fresh : TaskId} (hfresh : c.duty fresh = none)
    {pid : Pid} (hpid : c.box.record.pid = some pid)
    : (c.arm fresh pid).Orderly := by
  have hactive : c.box.record.status.isActive = true := by
    rw [← h.coherent.process, hpid]
    rfl
  have hout : ¬(c.box.holder = some fresh ∨ fresh ∈ c.box.queue) := h.out_of_line (by simp [hfresh])
  rw [not_or] at hout
  rw [Cell.arm, disarm_of_unwatched hwatch]
  apply h.replace (b := { c.box with watch := some fresh })
    ⟨h.coherent.process, h.coherent.removed, fun _ _ => hactive⟩ ⟨h.nodup, h.apart, h.idle⟩
  . exact fun _ => rfl
  . exact fun t _ ht => ht
  . rintro d ⟨⟩
    exact ⟨fun ht => absurd ht hout.1, fun ht => absurd ht hout.2, by simp, by simp, fun _ => rfl,
      fun _ => ⟨pid, rfl, hpid⟩⟩
  . intro t hne d hd
    exact hd.congr .rfl .rfl (by simp [hwatch, hne.symm]) fun _ => rfl

end Orderly

theorem duty_leave (c : Cell) (task : TaskId) {t : TaskId} {d : Duty} (h : (c.leave task).1.duty t = some d)
    : t ≠ task ∧ c.duty t = some d := by
  simp only [Cell.leave, dropTask] at h
  split at h
  . cases h
  . next hne => exact ⟨hne, h⟩

theorem Orderly.not_work_leave (h : c.Orderly) {task : TaskId} (hholder : c.box.holder = some task)
    (t : TaskId) (op : Operation) (stage : Stage)
    : (c.leave task).1.duty t ≠ some (.work op stage) := by
  intro ht
  rcases duty_leave c task ht with ⟨hne, ht⟩
  rw [h.worker t op stage ht] at hholder
  exact hne (Option.some.inj hholder)

theorem Orderly.leave (h : c.Orderly) {task : TaskId} (hholder : c.box.holder = some task)
    : (c.leave task).1.Sound := by
  refine ⟨?_, fun t op stage ht => absurd ht (h.not_work_leave hholder t op stage)⟩
  have hother : ∀ t ∈ c.box.queue, t ≠ task := fun t ht heq => h.apart t ht (by rw [heq, hholder])
  have hin : ∀ t, c.box.handOver.holder = some t ∨ t ∈ c.box.handOver.queue → t ∈ c.box.queue :=
    fun t ht => ht.elim List.mem_of_mem_head? List.mem_of_mem_tail
  apply h.replace (b := c.box.handOver) ⟨h.coherent.process, h.coherent.removed, h.coherent.watch⟩
  . refine ⟨h.nodup.tail, fun t ht => Box.holder_handOver_ne h.nodup ht, ?_⟩
    intro hnone
    simp only [Box.handOver, List.head?_eq_none_iff] at hnone ⊢
    rw [hnone]
    rfl
  . exact fun ht => absurd rfl (hother task (hin task ht))
  . exact fun t _ ht => .inr (hin t ht)
  . rintro d ⟨⟩
  . intro t hne d hd
    have hheld : c.box.holder ≠ some t := fun heq => hne (Option.some.inj (heq.symm.trans hholder))
    constructor
    case holder => exact fun ht => Duty.isVigil_of_contends (hd.queue (hin t (.inl ht)))
    case queue => exact fun ht => hd.queue (hin t (.inr ht))
    case worker => exact fun op stage heq => absurd (hd.worker op stage heq) hheld
    case notice => exact fun pid result heq => Box.mem_handOver ((hd.notice pid result heq).resolve_left hheld)
    case vigil => exact hd.vigil
    case watch => exact hd.watch

theorem Orderly.wait (h : c.Orderly) {task : TaskId} (hholder : c.box.holder = some task) {d : Duty}
    (hduty : c.duty task = some d) (hd : d.watched? = none) {op : Operation} {stage : Stage}
    (hfits : stage.Fits op c.box)
    : (c.assign task (.work op stage)).Sound := by
  constructor
  case toOrderly =>
    apply h.replace h.coherent h.lined
    . exact fun _ => rfl
    . exact fun t _ ht => ht
    . rintro d' ⟨⟩
      refine ⟨fun _ => rfl, fun ht => absurd hholder (h.apart task ht), fun _ _ _ => hholder, by simp,
        by simp [Duty.isVigil], fun ht => ?_⟩
      rcases h.watch task d ht hduty with ⟨pid, hpid, -⟩
      rw [hd] at hpid
      cases hpid
    . exact fun t _ d' hd' => hd'
  case fits =>
    intro t op' stage' ht
    rcases duty_assign_eq_some.mp ht with ⟨-, heq⟩ | ⟨hne, ht⟩
    . cases heq
      exact hfits
    . exact absurd (Option.some.inj ((h.worker t op' stage' ht).symm.trans hholder)) hne

section Claim

variable {task : TaskId} {d d' : Duty}

theorem duty_apply_wait (c : Cell) (limits : Limits) (fresh task : TaskId) (op : Operation) {m : Move}
    {stage : Stage} (hnext : m.next = .wait stage)
    : (c.apply limits fresh task op m).1.duty task = some (.work op stage) := by
  unfold apply
  simp [hnext, duty_assign]

theorem Orderly.placed_contending (h : c.Orderly) (hduty : c.duty task = some d) (hd : d.Contends d') {b : Box}
    (hrecord : b.record = c.box.record) (hwatch : b.watch = c.box.watch) (hplace : b.holder = some task ∨ task ∈ b.queue)
    : d'.Placed b task := by
  have hvigil : d'.isVigil = false := Duty.isVigil_of_contends hd.1
  constructor
  case holder => exact fun _ => hvigil
  case queue => exact fun _ => hd.1
  case worker =>
    rintro op stage rfl
    cases hd.1
  case notice => exact fun _ _ _ => hplace
  case vigil =>
    intro hv
    rw [hvigil] at hv
    cases hv
  case watch =>
    intro ht
    rw [Duty.watched_of_contends hd, hrecord]
    exact h.watch task d (by rw [← hwatch, ht]) hduty

theorem Orderly.assign_contending (h : c.Orderly) (hduty : c.duty task = some d) (hd : d.Contends d')
    {b : Box} (hb : b.record = c.box.record ∧ b.removed = c.box.removed ∧ b.watch = c.box.watch) (hlined : b.Lined)
    (hplace : b.holder = some task ∨ task ∈ b.queue) (hholder : ∀ t ≠ task, b.holder = some t ↔ c.box.holder = some t)
    (hqueue : ∀ t ≠ task, t ∈ b.queue ↔ t ∈ c.box.queue)
    : Orderly { c.assign task d' with box := b } := by
  rcases hb with ⟨hrecord, hremoved, hwatch⟩
  have hcoherent : b.Coherent := by
    constructor
    . rw [hrecord]
      exact h.coherent.process
    . rw [hrecord, hremoved]
      exact h.coherent.removed
    . rw [hrecord, hwatch]
      exact h.coherent.watch
  apply h.replace hcoherent hlined
  . exact fun _ => rfl
  . exact fun t hne ht => ht.imp (hholder t hne).mp (hqueue t hne).mp
  . rintro d ⟨⟩
    exact h.placed_contending hduty hd hrecord hwatch hplace
  . intro t hne e he
    exact he.congr (hholder t hne) (hqueue t hne) (by rw [hwatch]) fun _ => by rw [hrecord]

theorem Sound.claim_aside (h : c.Sound) (hduty : c.duty task = some d) (hd : d.Contends d')
    (hclaim : (c.box.claim task).1 = false)
    : Sound { c.assign task d' with box := (c.box.claim task).2 } := by
  have hfits : ∀ t op stage, (c.assign task d').duty t = some (.work op stage) → stage.Fits op c.box := by
    intro t op stage ht
    refine h.fits t op stage (work_of_assign ?_ ht)
    rintro op' stage' rfl
    cases hd.1
  have hcases := c.box.claims task
  generalize c.box.claim task = out at hcases hclaim ⊢
  cases hcases with
  | free idle => contradiction
  | own held => contradiction
  | again held another waits =>
    refine ⟨?_, hfits⟩
    exact h.toOrderly.assign_contending hduty hd ⟨rfl, rfl, rfl⟩ h.lined (.inr waits) (fun _ _ => .rfl) fun _ _ => .rfl
  | line held another arrives =>
    refine ⟨?_, fun t op stage ht => (hfits t op stage ht).congr rfl rfl rfl⟩
    apply h.toOrderly.assign_contending (b := { c.box with queue := c.box.queue ++ [task] }) hduty hd
      ⟨rfl, rfl, rfl⟩
    . constructor
      case nodup =>
        rw [← List.concat_eq_append]
        exact h.nodup.concat arrives
      case apart =>
        intro t ht
        rw [List.mem_append, List.mem_singleton] at ht
        rcases ht with ht | rfl
        . exact h.apart t ht
        . rw [held]
          exact fun heq => another (Option.some.inj heq)
      case idle => simp [held]
    . exact .inr (by simp)
    . exact fun _ _ => .rfl
    . intro t hne
      simp [hne]

theorem Sound.claim_held (h : c.Sound) (hduty : c.duty task = some d) (hd : d.Contends d')
    (hclaim : (c.box.claim task).1 = true)
    : Orderly { c.assign task d' with box := (c.box.claim task).2 } ∧
      (c.box.claim task).2.holder = some task := by
  have hcases := c.box.claims task
  generalize c.box.claim task = out at hcases hclaim ⊢
  cases hcases with
  | free idle =>
    refine ⟨?_, rfl⟩
    apply h.toOrderly.assign_contending (b := { c.box with holder := some task }) hduty hd ⟨rfl, rfl, rfl⟩
    . exact ⟨h.nodup, by simp [h.idle idle], by simp⟩
    . exact .inl rfl
    . intro t hne
      simp [idle, hne.symm]
    . exact fun _ _ => .rfl
  | own held =>
    refine ⟨?_, held⟩
    exact h.toOrderly.assign_contending hduty hd ⟨rfl, rfl, rfl⟩ h.lined (.inl held) (fun _ _ => .rfl) fun _ _ => .rfl
  | again held another waits => contradiction
  | line held another arrives => contradiction

end Claim

end Cell

end BoxRegistry
