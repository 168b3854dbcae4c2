import BoxRegistry.Proofs.Basic
import BoxRegistry.Proofs.Registry.Operations

namespace BoxRegistry

open Time (Moment)

namespace Status

def admits : Status → Option Ending → Bool
  | created, none | running, none | paused, none => true
  | stopped, some (.stopped ..) | stopped, some (.terminated ..) | stopped, some (.backendError _) => true
  | exited, some (.exited _) => true
  | failed, some (.startFailed _) | failed, some (.crashed _) | failed, some (.backendError _) => true
  | _, _ => false

theorem isTerminal_of_admits {s : Status} {ending : Ending} (h : s.admits (some ending) = true)
    : s.isTerminal = true := by
  cases s <;> first | rfl | (cases ending <;> cases h)

inductive Course : Status → List Status → Prop where
  | stays (s : Status) : Course s []
  | failsToStart : Course created [failed]
  | starts {rest : List Status} : Course running rest → Course created (running :: rest)
  | pauses {rest : List Status} : Course paused rest → Course running (paused :: rest)
  | resumes {rest : List Status} : Course running rest → Course paused (running :: rest)
  | ends {s last : Status} (active : s.isActive = true) (ended : last.isTerminal = true) : Course s [last]

theorem ne_of_next? {s s' : Status} {t : Transition} (h : s.next? t = some s') : s ≠ s' := by
  rintro rfl
  cases s <;> cases t <;> cases h

theorem Course.eq_nil {s : Status} {rest : List Status} (h : s.Course rest) (hs : s.isTerminal = true) : rest = [] := by
  cases h with
  | stays => rfl
  | ends active ended =>
    rw [isTerminal_of_isActive active] at hs
    cases hs
  | _ => cases hs

theorem course_cons {s s' : Status} {t : Transition} {rest : List Status} (h : s.next? t = some s')
    (hrest : s'.Course rest)
    : s.Course (s' :: rest) := by
  cases hterminal : s'.isTerminal with
  | true =>
    rw [hrest.eq_nil hterminal]
    cases s with
    | created => cases t <;> cases h <;> first | exact .failsToStart | cases hterminal
    | running => exact .ends rfl hterminal
    | paused => exact .ends rfl hterminal
    | _ => cases h
  | false =>
    cases s with
    | created => cases t <;> cases h <;> first | exact .starts hrest | cases hterminal
    | running => cases t <;> cases h <;> first | exact .pauses hrest | cases hterminal
    | paused => cases t <;> cases h <;> first | exact .resumes hrest | cases hterminal
    | _ => cases h

end Status

def Ending.isStartFailed : Ending → Bool
  | startFailed _ => true
  | _ => false

namespace Record

structure Coherent (r : Record) : Prop where
  process : r.pid.isSome = r.status.isActive
  ending : r.status.admits r.ending = true
  started : r.startedAt = none ↔ r.status = .created ∨ r.ending.any Ending.isStartFailed = true
  ended : r.endedAt.isSome = r.status.isTerminal

inductive Becomes (r : Record) (now : Moment) : Record → Prop where
  | same : Becomes r now r
  | starts {r' : Record} {pid : Pid} (h : r.markRunning now pid = .ok r') : Becomes r now r'
  | failsToStart {r' : Record} {message : String} (h : r.markStartFailed now message = .ok r') : Becomes r now r'
  | pauses {r' : Record} (h : r.markPaused now = .ok r') : Becomes r now r'
  | resumes {r' : Record} (h : r.markResumed now = .ok r') : Becomes r now r'
  | stops {r' : Record} {forced : Bool} {code : Option Int}
    (h : r.markTerminated now .stop (.stopped forced code) = .ok r') : Becomes r now r'
  | closes {r' : Record} {result : Except Fault ProcessEnd}
    (h : r.markTerminated now (r.status.closing result).1 (r.status.closing result).2 = .ok r') : Becomes r now r'

variable {r r' : Record} {now : Moment}

theorem coherent_new (createdAt : Moment) : (new createdAt).Coherent :=
  ⟨rfl, rfl, by simp [new], rfl⟩

section Marks

theorem markRunning_eq_ok {pid : Pid} (h : r.markRunning now pid = .ok r')
    : r.status.apply .start = .ok r'.status ∧ r' =
      { r with status := .running, pid := some pid, startedAt := some (r.tick now), lastUpdated := r.tick now } := by
  rcases bind_eq_ok_iff.mp h with ⟨status, happly, heq⟩
  obtain rfl := (Status.apply_start_eq_ok.mp happly).2
  cases heq
  exact ⟨happly, rfl⟩

theorem markStartFailed_eq_ok {message : String} (h : r.markStartFailed now message = .ok r')
    : r.status.apply .startFailed = .ok r'.status ∧ r' = r.finish now r'.status (.startFailed message) := by
  rcases bind_eq_ok_iff.mp h with ⟨status, happly, heq⟩
  cases heq
  exact ⟨happly, rfl⟩

theorem markPaused_eq_ok (h : r.markPaused now = .ok r')
    : r.status.apply .pause = .ok r'.status ∧ r' = { r with status := .paused, lastUpdated := r.tick now } := by
  rcases bind_eq_ok_iff.mp h with ⟨status, happly, heq⟩
  obtain rfl := (Status.apply_pause_eq_ok.mp happly).2
  cases heq
  exact ⟨happly, rfl⟩

theorem markResumed_eq_ok (h : r.markResumed now = .ok r')
    : r.status.apply .resume = .ok r'.status ∧ r' = { r with status := .running, lastUpdated := r.tick now } := by
  rcases bind_eq_ok_iff.mp h with ⟨status, happly, heq⟩
  obtain rfl := (Status.apply_resume_eq_ok.mp happly).2
  cases heq
  exact ⟨happly, rfl⟩

theorem eq_finish_of_markTerminated {t : Transition} {ending : Ending} (h : r.markTerminated now t ending = .ok r')
    : r.status.apply t = .ok r'.status ∧ r'.status.isTerminal = true ∧ r' = r.finish now r'.status ending := by
  rcases bind_eq_ok_iff.mp h with ⟨status, happly, heq⟩
  split at heq
  . next hterminal =>
    cases heq
    exact ⟨happly, hterminal, rfl⟩
  . cases heq

end Marks

theorem Becomes.status (h : r.Becomes now r') : r' = r ∨ ∃ t, r.status.next? t = some r'.status := by
  cases h with
  | same => exact .inl rfl
  | starts h => exact .inr ⟨.start, Status.apply_eq_ok_iff.mp (markRunning_eq_ok h).1⟩
  | failsToStart h => exact .inr ⟨.startFailed, Status.apply_eq_ok_iff.mp (markStartFailed_eq_ok h).1⟩
  | pauses h => exact .inr ⟨.pause, Status.apply_eq_ok_iff.mp (markPaused_eq_ok h).1⟩
  | resumes h => exact .inr ⟨.resume, Status.apply_eq_ok_iff.mp (markResumed_eq_ok h).1⟩
  | stops h => exact .inr ⟨_, Status.apply_eq_ok_iff.mp (eq_finish_of_markTerminated h).1⟩
  | closes h => exact .inr ⟨_, Status.apply_eq_ok_iff.mp (eq_finish_of_markTerminated h).1⟩

theorem Becomes.startedAt_of_isTerminal (h : r.Becomes now r') (hterminal : r'.status.isTerminal = true)
    : r'.startedAt = r.startedAt := by
  cases h with
  | same => rfl
  | starts h =>
    rw [(markRunning_eq_ok h).2] at hterminal
    cases hterminal
  | failsToStart h => rw [(markStartFailed_eq_ok h).2, finish]
  | pauses h => rw [(markPaused_eq_ok h).2]
  | resumes h => rw [(markResumed_eq_ok h).2]
  | stops h => rw [(eq_finish_of_markTerminated h).2.2, finish]
  | closes h => rw [(eq_finish_of_markTerminated h).2.2, finish]

theorem Coherent.ending_eq_none (h : r.Coherent) (hlive : r.status.isTerminal = false) : r.ending = none := by
  have hending := h.ending
  cases he : r.ending with
  | none => rfl
  | some ending =>
    rw [he] at hending
    rw [Status.isTerminal_of_admits hending] at hlive
    cases hlive

theorem Coherent.failed_of_isStartFailed (h : r.Coherent) (hending : r.ending.any Ending.isStartFailed = true)
    : r.status = .failed := by
  have hadmits := h.ending
  rcases (Option.any_eq_true _ _).mp hending with ⟨ending, he, hfailed⟩
  rw [he] at hadmits
  cases ending with
  | startFailed message => cases hs : r.status <;> rw [hs] at hadmits <;> first | rfl | cases hadmits
  | _ => cases hfailed

theorem Coherent.startedAt_eq_none_iff (h : r.Coherent) (hstatus : r.status ≠ .failed)
    : r.startedAt = none ↔ r.status = .created := by
  rw [h.started]
  constructor
  . rintro (hcreated | hending)
    . exact hcreated
    . exact absurd (h.failed_of_isStartFailed hending) hstatus
  . exact .inl

theorem Coherent.startedAt_of_isActive (h : r.Coherent) (hactive : r.status.isActive = true) : r.startedAt ≠ none := by
  have hne : ∀ status : Status, status.isActive = false → r.status ≠ status := by
    rintro _ hinactive rfl
    rw [hactive] at hinactive
    cases hinactive
  rw [Ne, h.startedAt_eq_none_iff (hne .failed rfl)]
  exact hne .created rfl

theorem Coherent.turn (h : r.Coherent) (hactive : r.status.isActive = true) {status : Status}
    (hstatus : status.isActive = true) (now : Moment)
    : { r with status, lastUpdated := now : Record }.Coherent := by
  have hending := h.ending_eq_none (Status.isTerminal_of_isActive hactive)
  have hstarted := h.startedAt_of_isActive hactive
  refine ⟨by rw [h.process, hactive, hstatus], ?_, ?_, ?_⟩
  . rw [hending]
    cases status <;> first | rfl | cases hstatus
  . have hcreated : status ≠ .created := by
      rintro rfl
      cases hstatus
    simp [hcreated, hending, hstarted]
  . rw [h.ended, Status.isTerminal_of_isActive hactive, Status.isTerminal_of_isActive hstatus]

theorem Coherent.finish (h : r.Coherent) (hactive : r.status.isActive = true) {status : Status} {ending : Ending}
    (hstatus : status.isTerminal = true) (hadmits : status.admits ending = true)
    (hending : ending.isStartFailed = false)
    : (r.finish now status ending).Coherent := by
  refine ⟨?_, hadmits, ?_, hstatus.symm⟩
  . exact (Status.isActive_of_isTerminal hstatus).symm
  . have hcreated : status ≠ .created := by
      rintro rfl
      cases hstatus
    have hstarted := h.startedAt_of_isActive hactive
    simp [Record.finish, hcreated, hending, hstarted]

theorem closing_admits {s next : Status} {result : Except Fault ProcessEnd} (hactive : s.isActive = true)
    (h : s.apply (s.closing result).1 = .ok next)
    : next.admits (s.closing result).2 = true ∧ (s.closing result).2.isStartFailed = false := by
  rw [Status.apply_eq_ok_iff] at h
  cases s with
  | running =>
    cases result with
    | error f =>
      cases h
      exact ⟨rfl, rfl⟩
    | ok how =>
      rcases how with ⟨_ | code, signal⟩
      . cases h
        exact ⟨rfl, rfl⟩
      . cases h
        exact ⟨rfl, rfl⟩
  | paused =>
    cases result with
    | error f =>
      cases h
      exact ⟨rfl, rfl⟩
    | ok how =>
      cases h
      exact ⟨rfl, rfl⟩
  | _ => cases hactive

theorem isActive_of_closing {s next : Status} {result : Except Fault ProcessEnd}
    (h : s.apply (s.closing result).1 = .ok next)
    : s.isActive = true := by
  rw [Status.apply_eq_ok_iff] at h
  cases s with
  | running => rfl
  | paused => rfl
  | _ =>
    cases result with
    | error f => cases h
    | ok how => rcases how with ⟨_ | code, signal⟩ <;> cases h

theorem Becomes.coherent (h : r.Becomes now r') (hr : r.Coherent) : r'.Coherent := by
  cases h with
  | same => exact hr
  | starts h =>
    rcases markRunning_eq_ok h with ⟨happly, rfl⟩
    have hcreated := (Status.apply_start_eq_ok.mp happly).1
    have hending := hr.ending_eq_none (by rw [hcreated]; rfl)
    refine ⟨rfl, ?_, ?_, ?_⟩
    . rw [hending]
      rfl
    . simp [hending]
    . rw [hr.ended, hcreated]
      rfl
  | failsToStart h =>
    rcases markStartFailed_eq_ok h with ⟨happly, heq⟩
    rcases Status.apply_startFailed_eq_ok.mp happly with ⟨hcreated, hfailed⟩
    rw [heq, hfailed]
    have hstarted := hr.started.mpr (.inl hcreated)
    exact ⟨rfl, rfl, by simp [Record.finish, hstarted, Ending.isStartFailed], rfl⟩
  | pauses h =>
    rcases markPaused_eq_ok h with ⟨happly, rfl⟩
    exact hr.turn (by rw [(Status.apply_pause_eq_ok.mp happly).1]; rfl) rfl _
  | resumes h =>
    rcases markResumed_eq_ok h with ⟨happly, rfl⟩
    exact hr.turn (by rw [(Status.apply_resume_eq_ok.mp happly).1]; rfl) rfl _
  | stops h =>
    rcases eq_finish_of_markTerminated h with ⟨happly, hterminal, heq⟩
    rcases Status.apply_stop_eq_ok.mp happly with ⟨hactive, hstopped⟩
    rw [heq]
    apply hr.finish hactive hterminal
    . rw [hstopped]
      rfl
    . rfl
  | closes h =>
    rcases eq_finish_of_markTerminated h with ⟨happly, hterminal, heq⟩
    have hactive := isActive_of_closing happly
    rcases closing_admits hactive happly with ⟨hadmits, hending⟩
    rw [heq]
    exact hr.finish hactive hterminal hadmits hending

end Record

section Moves

variable (b : Box) (now : Moment)

theorem Box.becomes_commit {change : Except Fault Record}
    (h : ∀ record, change = .ok record → b.record.Becomes now record)
    : b.record.Becomes now (b.commit change).box.record := by
  cases change with
  | error f => exact .same
  | ok record => exact h record rfl

theorem Box.becomes_settleStop (op : Operation) (pid : Pid) (forced : Bool) (code : Option Int)
    : b.record.Becomes now (b.settleStop op now pid forced code).box.record := by
  unfold settleStop
  split
  . exact .same
  . next h => cases op <;> exact .stops h

theorem Operation.becomes_proceed (op : Operation) (limits : Limits) (stage : Stage) (reply : Reply)
    : b.record.Becomes now (op.proceed limits now b stage reply).box.record := by
  have hproceeds := op.proceeds limits now b stage reply
  generalize op.proceed limits now b stage reply = m at hproceeds ⊢
  cases hproceeds with
  | launched pid =>
    unfold Box.succeedStart
    split
    . exact .same
    . next h => exact .starts h
  | unlaunched failed =>
    unfold Box.failStart
    split
    . exact .same
    . next h => exact .failsToStart h
  | @eased pid grace reply whole => cases grace <;> exact .same
  | parted | confirmed | presumed => apply Box.becomes_settleStop
  | paused whole done => exact b.becomes_commit now fun record h => .pauses h
  | resumed whole done => exact b.becomes_commit now fun record h => .resumes h
  | _ => exact .same

theorem Box.becomes_noticeEnd (task : TaskId) (pid : Pid) (result : Except Fault ProcessEnd)
    : b.record.Becomes now (b.noticeEnd now task pid result).1.record := by
  unfold noticeEnd
  split
  . exact .same
  . dsimp only
    split
    . exact .same
    . next h => exact .closes h

end Moves

end BoxRegistry
