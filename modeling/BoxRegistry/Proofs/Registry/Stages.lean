import BoxRegistry.Proofs.Registry.Moves

namespace BoxRegistry

open Time (Moment Span)

inductive Operation.Opens (op : Operation) (b : Box) : Stage → Prop where
  | launch (start : op = .start) (created : b.record.status = .created) : Opens op b .launching
  | ease {pid : Pid} {grace : Option Span} (presses : op.Presses grace) (paused : b.record.status = .paused) :
    Opens op b (.easing pid grace)
  | ask {pid : Pid} {grace : Span} (stop : op = .stop grace) (unpaused : b.record.status ≠ .paused) :
    Opens op b (.asking pid grace)
  | kill {pid : Pid} (remove : op = .remove true) (unpaused : b.record.status ≠ .paused) : Opens op b (.killing pid)
  | pause {pid : Pid} (pause : op = .pause) (running : b.record.status = .running) : Opens op b (.pausing pid)
  | resume {pid : Pid} (resume : op = .resume) (paused : b.record.status = .paused) : Opens op b (.resuming pid)

inductive Stage.Leads (reply : Reply) : Stage → Stage → Prop where
  | ask {pid : Pid} {grace : Span} : Leads reply (.easing pid (some grace)) (.asking pid grace)
  | press {pid : Pid} : Leads reply (.easing pid none) (.killing pid)
  | part {pid : Pid} {grace : Span} (done : reply = .done) : Leads reply (.asking pid grace) (.parting pid)
  | refused {pid : Pid} {grace : Span} (refused : reply ≠ .done) : Leads reply (.asking pid grace) (.killing pid)
  | remained {pid : Pid} (remained : ∀ how, reply ≠ .ended how) : Leads reply (.parting pid) (.killing pid)
  | confirm {pid : Pid} : Leads reply (.killing pid) (.confirming pid)

namespace Operation

variable {op : Operation} {b : Box} {stage : Stage}

theorem opens_enter (h : (op.enter b).next = .wait stage) : op.Opens b stage := by
  have henters := op.enters b
  generalize op.enter b = m at henters h
  cases henters with
  | refuse f => cases h
  | launch start created listed =>
    cases h
    exact .launch start created
  | pause pause running runs =>
    cases h
    exact .pause pause running
  | resume resume paused runs =>
    cases h
    exact .resume resume paused
  | ease presses paused runs =>
    cases h
    exact .ease presses paused
  | ask stop unpaused runs =>
    cases h
    exact .ask stop unpaused
  | kill remove unpaused runs =>
    cases h
    exact .kill remove unpaused
  | unlist removes listed inactive terminal => cases h

theorem leads_proceed {limits : Limits} {now : Moment} {origin : Stage} {reply : Reply}
    (h : (op.proceed limits now b origin reply).next = .wait stage)
    : origin.Leads reply stage := by
  have hproceeds := op.proceeds limits now b origin reply
  have hends : ∀ m : Move, (∃ result, m.next = .finish result) → m.next ≠ .wait stage := by
    rintro m ⟨result, hnext⟩
    rw [hnext]
    simp
  generalize op.proceed limits now b origin reply = m at hproceeds h
  cases hproceeds with
  | launched pid => exact absurd h (hends _ (b.finishes_succeedStart now pid))
  | unlaunched failed => exact absurd h (hends _ (b.finishes_failStart now _))
  | breaksOff message calm => cases h
  | @eased pid grace reply whole =>
    cases grace with
    | none =>
      cases h
      exact .press
    | some grace =>
      cases h
      exact .ask
  | asked =>
    cases h
    exact .part rfl
  | refused whole undone =>
    cases h
    exact .refused undone
  | parted | confirmed | presumed => exact absurd h (hends _ (b.finishes_settleStop ..))
  | remained whole remained =>
    cases h
    exact .remained remained
  | unkilled f => cases h
  | killed whole done =>
    cases h
    exact .confirm
  | unturned f turns => cases h
  | paused | resumed => exact absurd h (hends _ (b.finishes_commit _))

end Operation

end BoxRegistry
