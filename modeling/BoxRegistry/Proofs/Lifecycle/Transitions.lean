import BoxRegistry.Lifecycle.Record

namespace BoxRegistry

open Time (Moment)

namespace Status

theorem apply_start_eq_ok {s next : Status} : s.apply .start = .ok next ↔ s = .created ∧ next = .running := by
  rw [apply_eq_ok_iff]
  cases s <;> cases next <;> decide

theorem apply_startFailed_eq_ok {s next : Status}
    : s.apply .startFailed = .ok next ↔ s = .created ∧ next = .failed := by
  rw [apply_eq_ok_iff]
  cases s <;> cases next <;> decide

theorem apply_pause_eq_ok {s next : Status} : s.apply .pause = .ok next ↔ s = .running ∧ next = .paused := by
  rw [apply_eq_ok_iff]
  cases s <;> cases next <;> decide

theorem apply_resume_eq_ok {s next : Status} : s.apply .resume = .ok next ↔ s = .paused ∧ next = .running := by
  rw [apply_eq_ok_iff]
  cases s <;> cases next <;> decide

theorem apply_stop_eq_ok {s next : Status}
    : s.apply .stop = .ok next ↔ s.isActive = true ∧ next = .stopped := by
  rw [apply_eq_ok_iff]
  cases s <;> cases next <;> decide

theorem isTerminal_of_isActive {s : Status} (h : s.isActive = true) : s.isTerminal = false := by
  cases s <;> first | rfl | contradiction

theorem isActive_of_isTerminal {s : Status} (h : s.isTerminal = true) : s.isActive = false := by
  rcases isTerminal_iff.mp h with rfl | rfl | rfl <;> rfl

end Status

namespace Record

variable (r : Record) (now : Moment)

theorem markRunning_of_created (h : r.status = .created) (pid : Pid)
    : ∃ r', r.markRunning now pid = .ok r' ∧ r'.status = .running ∧ r'.pid = some pid := by
  have := Status.apply_start_eq_ok.mpr ⟨h, rfl⟩
  simp [markRunning, this, bind, Except.bind, pure, Except.pure]

theorem markStartFailed_of_created (h : r.status = .created) (message : String)
    : ∃ r', r.markStartFailed now message = .ok r' ∧ r'.status = .failed ∧ r'.pid = none := by
  refine ⟨r.finish now .failed (.startFailed message), ?_, rfl, rfl⟩
  simp only [markStartFailed, h]
  rfl

theorem markPaused_of_running (h : r.status = .running)
    : ∃ r', r.markPaused now = .ok r' ∧ r'.status = .paused ∧ r'.pid = r.pid := by
  have := Status.apply_pause_eq_ok.mpr ⟨h, rfl⟩
  simp [markPaused, this, bind, Except.bind, pure, Except.pure]

theorem markResumed_of_paused (h : r.status = .paused)
    : ∃ r', r.markResumed now = .ok r' ∧ r'.status = .running ∧ r'.pid = r.pid := by
  have := Status.apply_resume_eq_ok.mpr ⟨h, rfl⟩
  simp [markResumed, this, bind, Except.bind, pure, Except.pure]

theorem markTerminated_eq_ok {status : Status} {transition : Transition}
    (happly : r.status.apply transition = .ok status) (hterminal : status.isTerminal = true) (ending : Ending)
    : r.markTerminated now transition ending = .ok (r.finish now status ending) := by
  simp [markTerminated, happly, hterminal, bind, Except.bind, pure, Except.pure]

end Record

end BoxRegistry
