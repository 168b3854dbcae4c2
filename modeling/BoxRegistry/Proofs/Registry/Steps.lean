import BoxRegistry.Proofs.Registry.Orderly

/-!
This module contains all that an event can be to a box and its tasks: what is preserved at every event is proved
of these cases, one by one. A task that comes to the box, because it has its turn or because the process that it
watches has ended, either gets hold of the box or stands in line.
-/

namespace BoxRegistry

open Time (Moment)

def Duty.waits : Duty → Bool
  | work .. | watch _ => true
  | enter _ | post _ | notice .. => false

namespace Cell

inductive Rests (c : Cell) (slot : Slot) : Registry.Event → Prop where
  | create (request : Request) (now : Moment) (clock chance : Nat) : Rests c slot (.create request now clock chance)
  | begin {s : Slot} {op : Operation} (other : s ≠ slot) : Rests c slot (.begin s op)
  | turn {now : Moment} {task : TaskId} (waits : ∀ d, c.duty task = some d → d.waits = true) :
    Rests c slot (.turn now task)
  | reply {now : Moment} {task : TaskId} {reply : Reply} (idle : ∀ d, c.duty task = some d → d.waits = false) :
    Rests c slot (.reply now task reply)
  | describe {s : Slot} {record : Record} {reading : Option Usage}
    (other : ¬(s = slot ∧ (Box.sampledPid? record).isSome = true)) : Rests c slot (.describe s record reading)

inductive Arrives (c : Cell) (now : Moment) (task : TaskId) : Registry.Event → Duty → Prop where
  | turn {d : Duty} (duty : c.duty task = some d) (contends : d.contends = true) : Arrives c now task (.turn now task) d
  | reply {pid : Pid} {reply : Reply} (duty : c.duty task = some (.watch pid))
    (whole : ∀ message, reply ≠ .panicked message) :
    Arrives c now task (.reply now task reply) (.notice pid reply.ending)

/--
What an event is to a cell, and the cell and the effects that it leads to.
-/
inductive Steps (c : Cell) (limits : Limits) (fresh : TaskId) (slot : Slot) :
    Registry.Event → Cell × List Effect → Prop where
  | rests {e : Registry.Event} (rests : c.Rests slot e) : Steps c limits fresh slot e (c, [])
  | begins (op : Operation) :
    Steps c limits fresh slot (.begin slot op) (c.assign fresh (.enter op), [.wake fresh])
  | posts {now : Moment} {task : TaskId} {pid : Pid} (duty : c.duty task = some (.post pid)) :
    Steps c limits fresh slot (.turn now task)
      (c.assign task (.watch pid), [.call task (.wait pid) .unlimited])
  | queues {e : Registry.Event} {now : Moment} {task : TaskId} {d : Duty} (arrives : c.Arrives now task e d)
    (unclaimed : (c.box.claim task).1 = false) :
    Steps c limits fresh slot e ({ c.assign task d with box := (c.box.claim task).2 }, [])
  | enters {now : Moment} {task : TaskId} {op : Operation} (duty : c.duty task = some (.enter op))
    (claimed : (c.box.claim task).1 = true) :
    Steps c limits fresh slot (.turn now task)
      (({ c with box := (c.box.claim task).2 } : Cell).apply limits fresh task op (op.enter (c.box.claim task).2))
  | proceeds {now : Moment} {task : TaskId} {reply : Reply} {op : Operation} {stage : Stage}
    (duty : c.duty task = some (.work op stage)) :
    Steps c limits fresh slot (.reply now task reply)
      (c.apply limits fresh task op (op.proceed limits now c.box stage reply))
  | reports {e : Registry.Event} {now : Moment} {task : TaskId} {pid : Pid} {result : Except Fault ProcessEnd}
    (arrives : c.Arrives now task e (.notice pid result)) (claimed : (c.box.claim task).1 = true) :
    Steps c limits fresh slot e
      (({ c.assign task (.notice pid result) with box := (c.box.claim task).2 } : Cell).notice fresh now task pid
        result)
  | quits {now : Moment} {task : TaskId} {pid : Pid} {message : String} (duty : c.duty task = some (.watch pid)) :
    Steps c limits fresh slot (.reply now task (.panicked message)) (c.dropTask task, [])
  | samples {record : Record} {reading : Option Usage} (sampled : (Box.sampledPid? record).isSome = true) :
    Steps c limits fresh slot (.describe slot record reading)
      ({ c with box := { c.box with sample := reading <|> c.box.sample } }, [])

variable {c : Cell} {limits : Limits} {slot : Slot} {now : Moment} {task fresh : TaskId} {e : Registry.Event} {d : Duty}

theorem withBox_aside (hclaim : (c.box.claim task).1 = false) (work : Cell → Cell × List Effect)
    : c.withBox task work = ({ c with box := (c.box.claim task).2 }, []) := by
  simp [withBox, hclaim]

theorem withBox_held (hclaim : (c.box.claim task).1 = true) (work : Cell → Cell × List Effect)
    : c.withBox task work = work { c with box := (c.box.claim task).2 } := by
  simp [withBox, hclaim]

theorem step_enter {op : Operation} (hduty : c.duty task = some (.enter op)) (hclaim : (c.box.claim task).1 = true)
    (limits : Limits) (fresh : TaskId) (slot : Slot) (now : Moment)
    : c.step limits fresh slot (.turn now task) =
      ({ c with box := (c.box.claim task).2 } : Cell).apply limits fresh task op (op.enter (c.box.claim task).2) := by
  simp only [step, turn, hduty, withBox_held hclaim]

theorem step_turn_work {op : Operation} {stage : Stage} (hduty : c.duty task = some (.work op stage)) (limits : Limits)
    (fresh : TaskId) (slot : Slot) (now : Moment)
    : c.step limits fresh slot (.turn now task) = (c, []) := by
  simp only [step, turn, hduty]

theorem step_reply_work {op : Operation} {stage : Stage} (hduty : c.duty task = some (.work op stage)) (limits : Limits)
    (fresh : TaskId) (slot : Slot) (now : Moment) (reply : Reply)
    : c.step limits fresh slot (.reply now task reply) =
      c.apply limits fresh task op (op.proceed limits now c.box stage reply) := by
  simp only [step, Cell.reply, hduty]

theorem Rests.not_work (h : c.Rests slot e) {reply : Reply} (he : e = .reply now task reply) (op : Operation)
    (stage : Stage)
    : c.duty task ≠ some (.work op stage) := by
  intro hwork
  cases h with
  | reply idle =>
    cases he
    cases idle _ hwork
  | _ => cases he

namespace Arrives

theorem exists_contends (h : c.Arrives now task e d) : ∃ d', c.duty task = some d' ∧ d'.Contends d := by
  cases h with
  | turn duty contends => exact ⟨d, duty, contends, .inl rfl⟩
  | reply duty whole => exact ⟨_, duty, rfl, .inr ⟨_, _, rfl, rfl⟩⟩

theorem contends (h : c.Arrives now task e d) : d.contends = true := by
  cases h with
  | turn duty contends => exact contends
  | reply duty whole => rfl

theorem task?_eq (h : c.Arrives now task e d) : e.task? = some task := by
  cases h <;> rfl

theorem not_work_self (h : c.Arrives now task e d) (op : Operation) (stage : Stage)
    : c.duty task ≠ some (.work op stage) := by
  intro hwork
  cases h with
  | turn duty contends =>
    rw [duty] at hwork
    cases hwork
    cases contends
  | reply duty whole =>
    rw [duty] at hwork
    cases hwork

theorem not_work (h : c.Arrives now task e d) {now' : Moment} {task' : TaskId} {reply : Reply}
    (he : e = .reply now' task' reply) (op : Operation) (stage : Stage)
    : c.duty task' ≠ some (.work op stage) := by
  subst he
  obtain rfl : task' = task := Option.some.inj h.task?_eq
  exact h.not_work_self op stage

theorem ne_work (h : c.Arrives now task e d) (op : Operation) (stage : Stage) : d ≠ .work op stage := by
  rintro rfl
  cases h with
  | turn duty contends => cases contends

end Arrives

theorem Orderly.idle_of_claim (h : c.Orderly) (hclaim : (c.box.claim task).1 = true)
    (hidle : ∀ op stage, c.duty task ≠ some (.work op stage)) (t : TaskId) (op : Operation) (stage : Stage)
    : c.duty t ≠ some (.work op stage) := by
  intro ht
  have hholder := h.worker t op stage ht
  rcases Box.claim_eq_true_iff.mp hclaim with hnone | hown
  . rw [hnone] at hholder
    cases hholder
  . rw [hown] at hholder
    obtain rfl : task = t := Option.some.inj hholder
    exact hidle op stage ht

theorem Sound.claim_enter (h : c.Sound) {op : Operation} (hduty : c.duty task = some (.enter op))
    (hclaim : (c.box.claim task).1 = true)
    : Orderly { c with box := (c.box.claim task).2 } ∧ (c.box.claim task).2.holder = some task := by
  have hcontends : (Duty.enter op).Contends (.enter op) := ⟨rfl, .inl rfl⟩
  have hheld := h.claim_held hduty hcontends hclaim
  rwa [assign_self hduty] at hheld

theorem Sound.claim_arrives (h : c.Sound) (harrives : c.Arrives now task e d) (hclaim : (c.box.claim task).1 = true)
    : Orderly { c.assign task d with box := (c.box.claim task).2 } ∧ (c.box.claim task).2.holder = some task := by
  rcases harrives.exists_contends with ⟨d', hduty, hd⟩
  exact h.claim_held hduty hd hclaim

theorem steps_withBox_enter {op : Operation} (hduty : c.duty task = some (.enter op))
    : c.Steps limits fresh slot (.turn now task)
      (c.withBox task fun c => c.apply limits fresh task op (op.enter c.box)) := by
  cases hclaim : (c.box.claim task).1 with
  | true =>
    rw [withBox_held hclaim]
    exact .enters hduty hclaim
  | false =>
    have hqueues : c.Steps limits fresh slot (.turn now task) _ := .queues (.turn hduty rfl) hclaim
    rw [assign_self hduty] at hqueues
    rw [withBox_aside hclaim]
    exact hqueues

theorem steps_withBox_notice {pid : Pid} {result : Except Fault ProcessEnd}
    (harrives : c.Arrives now task e (.notice pid result))
    : c.Steps limits fresh slot e
      ((c.assign task (.notice pid result)).withBox task fun c => c.notice fresh now task pid result) := by
  cases hclaim : (c.box.claim task).1 with
  | true =>
    rw [withBox_held (c := c.assign task _) hclaim]
    exact .reports harrives hclaim
  | false =>
    rw [withBox_aside (c := c.assign task _) hclaim]
    exact .queues harrives hclaim

theorem steps_turn (c : Cell) (limits : Limits) (fresh : TaskId) (slot : Slot) (now : Moment) (task : TaskId)
    : c.Steps limits fresh slot (.turn now task) (c.turn limits fresh now task) := by
  unfold turn
  cases hduty : c.duty task with
  | none => exact .rests (.turn (by simp [hduty]))
  | some d =>
    cases d with
    | enter op => exact steps_withBox_enter hduty
    | post pid => exact .posts hduty
    | notice pid result =>
      have hsteps : c.Steps limits fresh slot (.turn now task) _ := steps_withBox_notice (.turn hduty rfl)
      rwa [assign_self hduty] at hsteps
    | work op stage => exact .rests (.turn (by simp [hduty, Duty.waits]))
    | watch pid => exact .rests (.turn (by simp [hduty, Duty.waits]))

theorem steps_reply (c : Cell) (limits : Limits) (fresh : TaskId) (slot : Slot) (now : Moment) (task : TaskId)
    (reply : Reply)
    : c.Steps limits fresh slot (.reply now task reply) (c.reply limits fresh now task reply) := by
  unfold Cell.reply
  cases hduty : c.duty task with
  | none => exact .rests (.reply (by simp [hduty]))
  | some d =>
    cases d with
    | work op stage => exact .proceeds hduty
    | watch pid =>
      have hnotice (hwhole : ∀ message, reply ≠ .panicked message)
          : c.Steps limits fresh slot (.reply now task reply)
            ((c.assign task (.notice pid reply.ending)).turn limits fresh now task) := by
        simp only [turn, duty_assign, if_true]
        exact steps_withBox_notice (.reply hduty hwhole)
      cases reply with
      | panicked message => exact .quits hduty
      | _ => exact hnotice (by simp)
    | _ => exact .rests (.reply (by simp [hduty, Duty.waits]))

theorem steps (c : Cell) (limits : Limits) (fresh : TaskId) (slot : Slot) (e : Registry.Event)
    : c.Steps limits fresh slot e (c.step limits fresh slot e) := by
  cases e with
  | create request now clock chance => exact .rests (.create request now clock chance)
  | begin s op =>
    simp only [step]
    split
    . next heq =>
      subst heq
      exact .begins op
    . next hne => exact .rests (.begin hne)
  | turn now task => exact c.steps_turn limits fresh slot now task
  | reply now task reply => exact c.steps_reply limits fresh slot now task reply
  | describe s record reading =>
    simp only [step]
    split
    . next hsampled =>
      rcases hsampled with ⟨rfl, hsampled⟩
      exact .samples hsampled
    . next hother => exact .rests (.describe hother)

end Cell

end BoxRegistry
