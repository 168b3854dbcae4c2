import BoxRegistry.Proofs.Registry.Operations

namespace BoxRegistry

open Time (Moment Span)

structure Box.Alike (b b' : Box) : Prop where
  spec : b'.spec = b.spec
  watch : b'.watch = b.watch
  holder : b'.holder = b.holder
  queue : b'.queue = b.queue

namespace Box

theorem Alike.refl (b : Box) : b.Alike b := ⟨rfl, rfl, rfl, rfl⟩

variable (b : Box)

theorem alike_commit (change : Except Fault Record) : b.Alike (b.commit change).box := by
  unfold commit
  split
  . exact .refl b
  . exact ⟨rfl, rfl, rfl, rfl⟩

theorem alike_part (pid : Pid) (grace : Option Span) : b.Alike (b.part pid grace).box := by
  cases grace <;> exact .refl b

theorem alike_settleStop (op : Operation) (now : Moment) (pid : Pid) (forced : Bool) (code : Option Int)
    : b.Alike (b.settleStop op now pid forced code).box := by
  unfold settleStop
  split
  . exact .refl b
  . dsimp only
    split <;> exact ⟨rfl, rfl, rfl, rfl⟩

theorem alike_failStart (now : Moment) (message : String) : b.Alike (b.failStart now message).box := by
  unfold failStart
  split
  . exact .refl b
  . exact ⟨rfl, rfl, rfl, rfl⟩

theorem alike_succeedStart (now : Moment) (pid : Pid) : b.Alike (b.succeedStart now pid).box := by
  unfold succeedStart
  split
  . exact .refl b
  . exact ⟨rfl, rfl, rfl, rfl⟩

theorem alike_noticeEnd (now : Moment) (task : TaskId) (pid : Pid) (result : Except Fault ProcessEnd)
    : b.Alike (b.noticeEnd now task pid result).1 := by
  unfold noticeEnd
  split
  . exact .refl b
  . dsimp only
    split
    . exact .refl b
    . exact ⟨rfl, rfl, rfl, rfl⟩

end Box

def Operation.stops : Operation → Bool
  | stop _ | remove true => true
  | start | pause | resume | remove false => false

def Stage.stops : Stage → Bool
  | easing .. | asking .. | parting _ | killing _ | confirming _ => true
  | launching | pausing _ | resuming _ => false

namespace Operation

open Box

theorem alike_enter (op : Operation) (b : Box) : b.Alike (op.enter b).box := by
  have henters := op.enters b
  generalize op.enter b = m at henters ⊢
  cases henters <;> exact ⟨rfl, rfl, rfl, rfl⟩

theorem alike_proceed (op : Operation) (limits : Limits) (now : Moment) (b : Box) (stage : Stage)
    (reply : Reply)
    : b.Alike (op.proceed limits now b stage reply).box := by
  have hproceeds := op.proceeds limits now b stage reply
  generalize op.proceed limits now b stage reply = m at hproceeds ⊢
  cases hproceeds with
  | launched pid => apply alike_succeedStart
  | unlaunched failed => apply alike_failStart
  | eased whole => apply alike_part
  | parted | confirmed | presumed => apply alike_settleStop
  | paused | resumed => apply alike_commit
  | _ => exact .refl b

end Operation

/--
What is true of a box while an operation waits at a stage.
-/
def Stage.Fits (op : Operation) (b : Box) : Stage → Prop
  | launching => op = .start ∧ b.record.status = .created ∧ b.removed = false
  | easing pid _ | asking pid _ | parting pid | killing pid | confirming pid =>
    op.stops = true ∧ b.Runs pid ∧ b.watch = none
  | pausing pid => op = .pause ∧ b.record.status = .running ∧ b.Runs pid
  | resuming pid => op = .resume ∧ b.record.status = .paused ∧ b.Runs pid

inductive Operation.Moves (op : Operation) (b : Box) : Option Stage → Move → Prop where
  | refuse {origin : Option Stage} (f : Fault)
    (turns : ∀ stage, origin = some stage → ∃ pid, stage = .pausing pid ∨ stage = .resuming pid) :
    Moves op b origin (b.refuse f)
  | crash {origin : Stage} (message : String) (calm : origin ≠ .launching) :
    Moves op b origin (b.crash message)
  | set {stage : Stage} (free : stage.stops = false) (fits : stage.Fits op b) :
    Moves op b none (b.await stage)
  | beginStop (stage : Stage) (stops : stage.stops = true) (fits : stage.Fits op { b with watch := none }) :
    Moves op b none { b.await stage with deeds := [.disarm] }
  | press {origin stage : Stage} (stops : stage.stops = true) (fits : stage.Fits op b) :
    Moves op b origin (b.await stage)
  | launch {record : Record} {pid : Pid} (start : op = .start) (created : b.record.status = .created)
    (listed : b.removed = false) (running : record.status = .running) (process : record.pid = some pid) :
    Moves op b (some .launching)
      { box := { b with record }, deeds := [.count .started, .watch pid], next := .finish (.ok ()) }
  | failLaunch {record : Record} {message : String} (start : op = .start)
    (created : b.record.status = .created) (listed : b.removed = false) (failed : record.status = .failed)
    (process : record.pid = none) :
    Moves op b (some .launching)
      { box := { b with record }, deeds := [.count (.ended .failed false)],
        next := .finish (.error (.startFailed message)) }
  | turnOver {record : Record} {pid : Pid} {origin : Stage} (runs : b.Runs pid)
    (active : record.status.isActive = true) (process : record.pid = some pid)
    (turns : op = .pause ∧ origin = .pausing pid ∨ op = .resume ∧ origin = .resuming pid) :
    Moves op b origin { box := { b with record }, next := .finish (.ok ()) }
  | stop {record : Record} {pid : Pid} {grace : Span} {origin : Stage} (stops : op = .stop grace)
    (runs : b.Runs pid) (unwatched : b.watch = none) (stopped : record.status = .stopped)
    (process : record.pid = none) (ends : origin = .parting pid ∨ origin = .confirming pid) :
    Moves op b origin
      { box := { b with record, sample := none }, deeds := [.release pid, .count (.ended .stopped true)],
        next := .finish (.ok ()) }
  | stopAndRemove {record : Record} {pid : Pid} {origin : Stage} (removes : op = .remove true)
    (runs : b.Runs pid) (unwatched : b.watch = none) (stopped : record.status = .stopped)
    (process : record.pid = none) (ends : origin = .parting pid ∨ origin = .confirming pid) :
    Moves op b origin
      (({ b with record, sample := none } : Box).unlist [.release pid, .count (.ended .stopped true)])
  | rearm {pid : Pid} (f : Fault) (stops : op.stops = true) (runs : b.Runs pid) (unwatched : b.watch = none) :
    Moves op b (some (.killing pid)) { b.refuse f with deeds := [.watch pid] }
  | remove {force : Bool} (removes : op = .remove force) (inactive : b.record.status.isActive = false)
    (listed : b.removed = false) :
    Moves op b none b.unlist

namespace Operation

open Box

theorem stops_of_presses {op : Operation} {grace : Option Span} (h : op.Presses grace) : op.stops = true := by
  cases grace <;> cases h <;> rfl

theorem moves_enter (op : Operation) (b : Box) : op.Moves b none (op.enter b) := by
  have henters := op.enters b
  generalize op.enter b = m at henters ⊢
  cases henters with
  | refuse f => exact .refuse f (by simp)
  | launch start created listed => exact .set rfl ⟨start, created, listed⟩
  | pause pause running runs => exact .set rfl ⟨pause, running, runs⟩
  | resume resume paused runs => exact .set rfl ⟨resume, paused, runs⟩
  | ease presses paused runs =>
    exact .beginStop _ rfl ⟨stops_of_presses presses, ⟨runs.listed, runs.active, runs.pid⟩, rfl⟩
  | @ask pid grace stop unpaused runs =>
    have hpresses : op.Presses (some grace) := stop
    exact .beginStop _ rfl ⟨stops_of_presses hpresses, ⟨runs.listed, runs.active, runs.pid⟩, rfl⟩
  | kill remove unpaused runs =>
    have hpresses : op.Presses none := remove
    exact .beginStop _ rfl ⟨stops_of_presses hpresses, ⟨runs.listed, runs.active, runs.pid⟩, rfl⟩
  | unlist removes listed inactive terminal => exact .remove removes inactive listed

section Stop

variable {op : Operation} {b : Box} {pid : Pid}

theorem moves_part (hop : op.stops = true) (hruns : b.Runs pid) (hwatch : b.watch = none) (origin : Stage)
    (grace : Option Span)
    : op.Moves b origin (b.part pid grace) := by
  cases grace with
  | none => exact .press rfl ⟨hop, hruns, hwatch⟩
  | some grace => exact .press rfl ⟨hop, hruns, hwatch⟩

theorem moves_settleStop (hop : op.stops = true) (hruns : b.Runs pid) (hwatch : b.watch = none)
    {origin : Stage} (horigin : origin = .parting pid ∨ origin = .confirming pid) (now : Moment)
    (forced : Bool) (code : Option Int)
    : op.Moves b origin (b.settleStop op now pid forced code) := by
  have := b.record.markTerminated_eq_ok now (Status.apply_stop_eq_ok.mpr ⟨hruns.active, rfl⟩) rfl
    (.stopped forced code)
  simp only [settleStop, this]
  cases op with
  | stop grace => exact .stop rfl hruns hwatch rfl rfl horigin
  | remove force =>
    cases force with
    | true => exact .stopAndRemove rfl hruns hwatch rfl rfl horigin
    | false => contradiction
  | start => contradiction
  | pause => contradiction
  | resume => contradiction

end Stop

theorem moves_proceed {op : Operation} {b : Box} {stage : Stage} (h : stage.Fits op b) (limits : Limits)
    (now : Moment) (reply : Reply)
    : op.Moves b stage (op.proceed limits now b stage reply) := by
  have hproceeds := op.proceeds limits now b stage reply
  generalize op.proceed limits now b stage reply = m at hproceeds ⊢
  cases hproceeds with
  | launched pid =>
    rcases h with ⟨rfl, hcreated, hlisted⟩
    rcases b.record.markRunning_of_created now hcreated pid with ⟨record, hrecord, hstatus, hpid⟩
    simp only [succeedStart, hrecord]
    exact .launch rfl hcreated hlisted hstatus hpid
  | @unlaunched reply message failed =>
    rcases h with ⟨rfl, hcreated, hlisted⟩
    rcases b.record.markStartFailed_of_created now hcreated message with ⟨record, hrecord, hstatus, hpid⟩
    simp only [failStart, hrecord]
    exact .failLaunch rfl hcreated hlisted hstatus hpid
  | breaksOff message calm => exact .crash message calm
  | eased whole => exact moves_part h.1 h.2.1 h.2.2 _ _
  | asked => exact .press rfl h
  | refused whole undone => exact .press rfl h
  | parted how => exact moves_settleStop h.1 h.2.1 h.2.2 (.inl rfl) now false how.code
  | remained whole remained => exact .press rfl h
  | unkilled f => exact .rearm _ h.1 h.2.1 h.2.2
  | killed whole done => exact .press rfl h
  | confirmed how => exact moves_settleStop h.1 h.2.1 h.2.2 (.inr rfl) now true how.code
  | presumed whole unknown => exact moves_settleStop h.1 h.2.1 h.2.2 (.inr rfl) now true none
  | unturned f turns =>
    apply Moves.refuse
    rintro stage' ⟨⟩
    exact turns
  | paused whole done =>
    rcases h with ⟨rfl, hrunning, hruns⟩
    rcases b.record.markPaused_of_running now hrunning with ⟨record, hrecord, hstatus, hpid⟩
    rw [hrecord]
    exact .turnOver hruns (by rw [hstatus]; rfl) (by rw [hpid, hruns.pid]) (.inl ⟨rfl, rfl⟩)
  | resumed whole done =>
    rcases h with ⟨rfl, hpaused, hruns⟩
    rcases b.record.markResumed_of_paused now hpaused with ⟨record, hrecord, hstatus, hpid⟩
    rw [hrecord]
    exact .turnOver hruns (by rw [hstatus]; rfl) (by rw [hpid, hruns.pid]) (.inr ⟨rfl, rfl⟩)

end Operation

inductive Box.Claims (b : Box) (task : TaskId) : Bool × Box → Prop where
  | free (idle : b.holder = none) : Claims b task (true, { b with holder := some task })
  | own (held : b.holder = some task) : Claims b task (true, b)
  | again {other : TaskId} (held : b.holder = some other) (another : other ≠ task) (waits : task ∈ b.queue) :
    Claims b task (false, b)
  | line {other : TaskId} (held : b.holder = some other) (another : other ≠ task) (arrives : task ∉ b.queue) :
    Claims b task (false, { b with queue := b.queue ++ [task] })

theorem Box.claims (b : Box) (task : TaskId) : b.Claims task (b.claim task) := by
  unfold claim
  split
  . next hidle => exact .free hidle
  . next holder hheld =>
    split
    . next heq => exact .own (by rw [hheld, heq])
    . next hne =>
      split
      . next hmem => exact .again hheld hne (by simpa using hmem)
      . next hmem => exact .line hheld hne (by simpa using hmem)

structure Box.Untouched (b b' : Box) : Prop where
  spec : b'.spec = b.spec
  record : b'.record = b.record
  removed : b'.removed = b.removed
  watch : b'.watch = b.watch

theorem Box.Untouched.refl (b : Box) : b.Untouched b := ⟨rfl, rfl, rfl, rfl⟩

theorem Box.untouched_claim (b : Box) (task : TaskId) : b.Untouched (b.claim task).2 := by
  have hcases := b.claims task
  generalize b.claim task = out at hcases ⊢
  cases hcases <;> exact ⟨rfl, rfl, rfl, rfl⟩

theorem Box.holder_of_claim_aside {b : Box} {task : TaskId} (h : (b.claim task).1 = false)
    : (b.claim task).2.holder = b.holder ∧ b.holder ≠ some task := by
  have hcases := b.claims task
  generalize b.claim task = out at hcases h ⊢
  cases hcases with
  | free idle => cases h
  | own held => cases h
  | again held another waits =>
    refine ⟨rfl, ?_⟩
    rw [held]
    exact fun heq => another (Option.some.inj heq)
  | line held another arrives =>
    refine ⟨rfl, ?_⟩
    rw [held]
    exact fun heq => another (Option.some.inj heq)

theorem Box.claim_eq_true_iff {b : Box} {task : TaskId}
    : (b.claim task).1 = true ↔ b.holder = none ∨ b.holder = some task := by
  have hcases := b.claims task
  generalize b.claim task = out at hcases
  cases hcases with
  | free idle => simp [idle]
  | own held => simp [held]
  | again held another waits => simp [held, another]
  | line held another arrives => simp [held, another]

end BoxRegistry
