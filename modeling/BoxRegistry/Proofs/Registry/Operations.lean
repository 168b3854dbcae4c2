import BoxRegistry.Registry.ExitWatch
import BoxRegistry.Proofs.Lifecycle.Transitions

/-!
This module contains all that an operation can do: when its task gets hold of the box, and when it hears the reply to a
call. Each case says under which guard it comes about, so what is true of every move of an operation is proved case by
case.
-/

namespace BoxRegistry

open Time (Moment Span)

structure Box.Runs (b : Box) (pid : Pid) : Prop where
  listed : b.removed = false
  active : b.record.status.isActive = true
  pid : b.record.pid = some pid

def Operation.Presses (op : Operation) : Option Span → Prop
  | some grace => op = .stop grace
  | none => op = .remove true

inductive Operation.Enters (op : Operation) (b : Box) : Move → Prop where
  | refuse (f : Fault) : Enters op b (b.refuse f)
  | launch (start : op = .start) (created : b.record.status = .created) (listed : b.removed = false) :
    Enters op b (b.await .launching)
  | pause {pid : Pid} (pause : op = .pause) (running : b.record.status = .running) (runs : b.Runs pid) :
    Enters op b (b.await (.pausing pid))
  | resume {pid : Pid} (resume : op = .resume) (paused : b.record.status = .paused) (runs : b.Runs pid) :
    Enters op b (b.await (.resuming pid))
  | ease {pid : Pid} {grace : Option Span} (presses : op.Presses grace) (paused : b.record.status = .paused)
    (runs : b.Runs pid) :
    Enters op b { b.await (.easing pid grace) with deeds := [.disarm] }
  | ask {pid : Pid} {grace : Span} (stop : op = .stop grace) (unpaused : b.record.status ≠ .paused)
    (runs : b.Runs pid) :
    Enters op b { b.await (.asking pid grace) with deeds := [.disarm] }
  | kill {pid : Pid} (remove : op = .remove true) (unpaused : b.record.status ≠ .paused) (runs : b.Runs pid) :
    Enters op b { b.await (.killing pid) with deeds := [.disarm] }
  | unlist {force : Bool} (removes : op = .remove force) (listed : b.removed = false)
    (inactive : b.record.status.isActive = false) (terminal : force = false → b.record.status.isTerminal = true) :
    Enters op b b.unlist

inductive Operation.Proceeds (op : Operation) (limits : Limits) (now : Moment) (b : Box) :
    Stage → Reply → Move → Prop where
  | launched (pid : Pid) : Proceeds op limits now b .launching (.launched pid) (b.succeedStart now pid)
  | unlaunched {reply : Reply} {message : String} (failed : reply.launch limits = .error message) :
    Proceeds op limits now b .launching reply (b.failStart now message)
  | breaksOff {stage : Stage} (message : String) (calm : stage ≠ .launching) :
    Proceeds op limits now b stage (.panicked message) (b.crash message)
  | eased {pid : Pid} {grace : Option Span} {reply : Reply} (whole : ∀ message, reply ≠ .panicked message) :
    Proceeds op limits now b (.easing pid grace) reply (b.part pid grace)
  | asked {pid : Pid} {grace : Span} : Proceeds op limits now b (.asking pid grace) .done (b.await (.parting pid))
  | refused {pid : Pid} {grace : Span} {reply : Reply} (whole : ∀ message, reply ≠ .panicked message)
    (undone : reply ≠ .done) :
    Proceeds op limits now b (.asking pid grace) reply (b.await (.killing pid))
  | parted {pid : Pid} (how : ProcessEnd) :
    Proceeds op limits now b (.parting pid) (.ended how) (b.settleStop op now pid false how.code)
  | remained {pid : Pid} {reply : Reply} (whole : ∀ message, reply ≠ .panicked message)
    (remained : ∀ how, reply ≠ .ended how) :
    Proceeds op limits now b (.parting pid) reply (b.await (.killing pid))
  | unkilled {pid : Pid} (f : Fault) :
    Proceeds op limits now b (.killing pid) (.failed f) { b.refuse (.stopFailed f.message) with deeds := [.watch pid] }
  | killed {pid : Pid} {reply : Reply} (whole : ∀ message, reply ≠ .panicked message) (done : ∀ f, reply ≠ .failed f) :
    Proceeds op limits now b (.killing pid) reply (b.await (.confirming pid))
  | confirmed {pid : Pid} (how : ProcessEnd) :
    Proceeds op limits now b (.confirming pid) (.ended how) (b.settleStop op now pid true how.code)
  | presumed {pid : Pid} {reply : Reply} (whole : ∀ message, reply ≠ .panicked message)
    (unknown : ∀ how, reply ≠ .ended how) :
    Proceeds op limits now b (.confirming pid) reply (b.settleStop op now pid true none)
  | unturned {stage : Stage} (f : Fault) (turns : ∃ pid, stage = .pausing pid ∨ stage = .resuming pid) :
    Proceeds op limits now b stage (.failed f) (b.refuse f)
  | paused {pid : Pid} {reply : Reply} (whole : ∀ message, reply ≠ .panicked message) (done : ∀ f, reply ≠ .failed f) :
    Proceeds op limits now b (.pausing pid) reply (b.commit (b.record.markPaused now))
  | resumed {pid : Pid} {reply : Reply} (whole : ∀ message, reply ≠ .panicked message) (done : ∀ f, reply ≠ .failed f) :
    Proceeds op limits now b (.resuming pid) reply (b.commit (b.record.markResumed now))

namespace Box

theorem finishes_commit (b : Box) (change : Except Fault Record)
    : ∃ result, (b.commit change).next = .finish result := by
  cases change <;> exact ⟨_, rfl⟩

theorem finishes_settleStop (b : Box) (op : Operation) (now : Moment) (pid : Pid) (forced : Bool) (code : Option Int)
    : ∃ result, (b.settleStop op now pid forced code).next = .finish result := by
  unfold settleStop
  split
  . exact ⟨_, rfl⟩
  . cases op <;> exact ⟨_, rfl⟩

theorem finishes_succeedStart (b : Box) (now : Moment) (pid : Pid)
    : ∃ result, (b.succeedStart now pid).next = .finish result := by
  unfold succeedStart
  split <;> exact ⟨_, rfl⟩

theorem finishes_failStart (b : Box) (now : Moment) (message : String)
    : ∃ result, (b.failStart now message).next = .finish result := by
  unfold failStart
  split <;> exact ⟨_, rfl⟩

end Box

namespace Operation

open Box

theorem enters_withProcess {op : Operation} {b : Box} {t : Transition} {go : Pid → Move}
    (hlisted : b.removed = false)
    (hactive : ∀ next, b.record.status.apply t = .ok next → b.record.status.isActive = true)
    (h : ∀ pid next, b.Runs pid → b.record.status.apply t = .ok next → op.Enters b (go pid))
    : op.Enters b (b.withProcess t go) := by
  unfold withProcess
  split
  . exact .refuse _
  . next next hnext =>
    cases hpid : b.record.pid with
    | none =>
      simp only [process, hpid]
      exact .refuse _
    | some pid =>
      simp only [process, hpid]
      exact h pid next ⟨hlisted, hactive next hnext, hpid⟩ hnext

theorem enters_beginStop {op : Operation} {b : Box} (hlisted : b.removed = false) {grace : Option Span}
    (hpresses : op.Presses grace)
    : op.Enters b (b.beginStop grace) := by
  apply enters_withProcess hlisted
  . intro next h
    exact (Status.apply_stop_eq_ok.mp h).1
  . intro pid next hruns _
    dsimp only
    split
    . next hpaused => exact .ease hpresses hpaused hruns
    . next hunpaused =>
      cases grace with
      | none => exact .kill hpresses hunpaused hruns
      | some grace => exact .ask hpresses hunpaused hruns

theorem enters (op : Operation) (b : Box) : op.Enters b (op.enter b) := by
  unfold enter
  split
  . exact .refuse _
  . next hremoved =>
    have hlisted : b.removed = false := by simpa using hremoved
    cases op with
    | start =>
      dsimp only
      split
      . exact .refuse _
      . next h => exact .launch rfl (Status.apply_start_eq_ok.mp h).1 hlisted
    | stop grace => exact enters_beginStop hlisted rfl
    | pause =>
      apply enters_withProcess hlisted
      . intro next h
        rw [(Status.apply_pause_eq_ok.mp h).1]
        rfl
      . intro pid next hruns h
        exact .pause rfl (Status.apply_pause_eq_ok.mp h).1 hruns
    | resume =>
      apply enters_withProcess hlisted
      . intro next h
        rw [(Status.apply_resume_eq_ok.mp h).1]
        rfl
      . intro pid next hruns h
        exact .resume rfl (Status.apply_resume_eq_ok.mp h).1 hruns
    | remove force =>
      cases force with
      | true =>
        dsimp only
        split
        . exact enters_beginStop hlisted rfl
        . next h => exact .unlist rfl hlisted (by simpa using h) (by simp)
      | false =>
        dsimp only
        unfold Status.ensureRemovable
        cases hterminal : b.record.status.isTerminal with
        | true => exact .unlist rfl hlisted (Status.isActive_of_isTerminal hterminal) fun _ => hterminal
        | false => exact .refuse _

theorem record_enter (b : Box) (op : Operation) : (op.enter b).box.record = b.record := by
  have henters := op.enters b
  generalize op.enter b = m at henters ⊢
  cases henters <;> rfl

theorem proceeds (op : Operation) (limits : Limits) (now : Moment) (b : Box) (stage : Stage) (reply : Reply)
    : op.Proceeds limits now b stage reply (op.proceed limits now b stage reply) := by
  cases stage with
  | launching =>
    cases reply with
    | launched pid => exact .launched pid
    | _ => exact .unlaunched rfl
  | easing pid grace =>
    cases reply with
    | panicked message => exact .breaksOff message (by simp)
    | _ => exact .eased (by simp)
  | asking pid grace =>
    cases reply with
    | panicked message => exact .breaksOff message (by simp)
    | done => exact .asked
    | _ => exact .refused (by simp) (by simp)
  | parting pid =>
    cases reply with
    | panicked message => exact .breaksOff message (by simp)
    | ended how => exact .parted how
    | _ => exact .remained (by simp) (by simp)
  | killing pid =>
    cases reply with
    | panicked message => exact .breaksOff message (by simp)
    | failed f => exact .unkilled f
    | _ => exact .killed (by simp) (by simp)
  | confirming pid =>
    cases reply with
    | panicked message => exact .breaksOff message (by simp)
    | ended how => exact .confirmed how
    | _ => exact .presumed (by simp) (by simp)
  | pausing pid =>
    cases reply with
    | panicked message => exact .breaksOff message (by simp)
    | failed f => exact .unturned f ⟨pid, .inl rfl⟩
    | _ => exact .paused (by simp) (by simp)
  | resuming pid =>
    cases reply with
    | panicked message => exact .breaksOff message (by simp)
    | failed f => exact .unturned f ⟨pid, .inr rfl⟩
    | _ => exact .resumed (by simp) (by simp)

end Operation

end BoxRegistry
