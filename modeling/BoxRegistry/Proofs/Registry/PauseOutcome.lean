import BoxRegistry.Proofs.Registry.Withdrawal
import BoxRegistry.Simulation.Backend

namespace BoxRegistry

open Time (Moment)

inductive Operation.TurnsTo (pid : Pid) : Operation → Stage → Call → Status → Prop where
  | paused : TurnsTo pid .pause (.pausing pid) (.pause pid) .paused
  | running : TurnsTo pid .resume (.resuming pid) (.resume pid) .running

theorem Operation.allowedIn_pause {s : Status} : pause.allowedIn s = true ↔ s = .running := by
  cases s <;> decide

theorem Operation.allowedIn_resume {s : Status} : resume.allowedIn s = true ↔ s = .paused := by
  cases s <;> decide

theorem Box.refusal?_eq_none_iff {b : Box} {op : Operation}
    : b.refusal? op = none ↔ b.removed = false ∧ op.allowedIn b.record.status = true := by
  cases hremoved : b.removed <;> cases hallowed : op.allowedIn b.record.status <;>
    simp [Box.refusal?, hremoved, hallowed]

namespace Operation.TurnsTo

variable {pid : Pid} {op : Operation} {stage : Stage} {call : Call} {next : Status} {b : Box}

theorem exists_of_operation (hop : op = .pause ∨ op = .resume) (pid : Pid)
    : ∃ stage call next, op.TurnsTo pid stage call next := by
  rcases hop with rfl | rfl
  . exact ⟨_, _, _, .paused⟩
  . exact ⟨_, _, _, .running⟩

theorem isActive (hop : op = .pause ∨ op = .resume) {s : Status} (hallowed : op.allowedIn s = true)
    : s.isActive = true := by
  rcases hop with rfl | rfl
  . rw [allowedIn_pause.mp hallowed]
    rfl
  . rw [allowedIn_resume.mp hallowed]
    rfl

theorem enter_eq (h : op.TurnsTo pid stage call next) (hlisted : b.removed = false)
    (hallowed : op.allowedIn b.record.status = true) (hpid : b.record.pid = some pid)
    : op.enter b = b.await stage := by
  cases h with
  | paused =>
    have hstatus := allowedIn_pause.mp hallowed
    simp [enter, hlisted, Box.withProcess, hstatus, Status.apply, Status.next?, Box.process, hpid]
  | running =>
    have hstatus := allowedIn_resume.mp hallowed
    simp [enter, hlisted, Box.withProcess, hstatus, Status.apply, Status.next?, Box.process, hpid]

theorem call_eq (h : op.TurnsTo pid stage call next) (spec : Spec) (limits : Limits)
    : stage.call spec = call ∧ stage.bound limits = .unlimited := by
  cases h <;> exact ⟨rfl, rfl⟩

theorem proceed_failed (h : op.TurnsTo pid stage call next) (limits : Limits) (now : Moment) (b : Box) (f : Fault)
    : op.proceed limits now b stage (.failed f) = b.refuse f := by
  cases h <;> rfl

theorem proceed_panicked (h : op.TurnsTo pid stage call next) (limits : Limits) (now : Moment) (b : Box)
    (message : String)
    : op.proceed limits now b stage (.panicked message) = b.crash message := by
  cases h <;> rfl

theorem proceed_otherwise (h : op.TurnsTo pid stage call next) (hfits : stage.Fits op b) (limits : Limits)
    (now : Moment) {reply : Reply} (hfailed : ∀ f, reply ≠ .failed f) (hpanicked : ∀ message, reply ≠ .panicked message)
    : op.proceed limits now b stage reply =
        { box := { b with record := { b.record with status := next, lastUpdated := b.record.tick now } },
          next := .finish (.ok ()) } := by
  have hcommit : op.proceed limits now b stage reply =
      b.commit (.ok { b.record with status := next, lastUpdated := b.record.tick now }) := by
    cases h with
    | paused =>
      have hmarked : b.record.markPaused now =
          .ok { b.record with status := .paused, lastUpdated := b.record.tick now } := by
        rw [Record.markPaused, hfits.2.1]
        rfl
      cases reply with
      | failed f => exact absurd rfl (hfailed f)
      | panicked message => exact absurd rfl (hpanicked message)
      | _ => exact congrArg b.commit hmarked
    | running =>
      have hmarked : b.record.markResumed now =
          .ok { b.record with status := .running, lastUpdated := b.record.tick now } := by
        rw [Record.markResumed, hfits.2.1]
        rfl
      cases reply with
      | failed f => exact absurd rfl (hfailed f)
      | panicked message => exact absurd rfl (hpanicked message)
      | _ => exact congrArg b.commit hmarked
  rw [hcommit]
  rfl

end Operation.TurnsTo

namespace Registry

variable {limits : Limits} {r : Registry} {slot : Slot} {task : TaskId} {c : Cell} {b : Box} {op : Operation}
  {pid : Pid} {stage : Stage} {call : Call} {next : Status}

structure Waiting (r : Registry) (slot : Slot) (b : Box) (task : TaskId) (op : Operation) (stage : Stage) : Prop where
  waits : r.task? task = some ⟨slot, .work op stage⟩
  table : ∃ b', r.boxes[slot]? = some b' ∧ b.Agrees b'

structure Turned (r : Registry) (slot : Slot) (b : Box) (task : TaskId) (next : Status) (e : Event) : Prop where
  result : (r.step e).2.filterMap Effect.result? = [(task, .ok ())]
  gone : (r.step e).1.task? task = none
  box : ∃ b' moment, (r.step e).1.boxes[slot]? = some b' ∧ b'.spec = b.spec ∧ b'.removed = b.removed ∧
    b'.record = { b.record with status := next, lastUpdated := moment }

structure Tells (r : Registry) (slot : Slot) (b : Box) (task : TaskId) (next : Status) (now : Moment) (reply : Reply) :
    Prop where
  failed : ∀ f, reply = .failed f → r.Withdraws slot task f (.reply now task reply)
  brokenOff : ∀ message, reply = .panicked message →
    r.Withdraws slot task (.brokenOff task message) (.reply now task reply)
  otherwise : (∀ f, reply ≠ .failed f) → (∀ message, reply ≠ .panicked message) →
    r.Turned slot b task next (.reply now task reply)

section Answer

variable (h : Reachable limits (fun _ _ => True) r)
include h

theorem waiting_aside (hwaiting : r.Waiting slot b task op stage) {e : Event}
    (he : ∀ now reply, e ≠ .reply now task reply)
    : (r.step e).1.Waiting slot b task op stage := by
  have htidy := tidy_of_reachable h
  rcases hwaiting.table with ⟨b', hb', hagrees⟩
  rcases exists_cell? hb' with ⟨c, hc, rfl⟩
  have hcell := (evolves htidy e).cell slot c hc
  have hduty := duty_of_task? hc hwaiting.waits
  rcases (sound_of_reachable h hc).work_aside (below_of_tidy htidy hc) hduty r.limits slot he with ⟨hkept, huntouched⟩
  refine ⟨task?_of_duty hcell hkept, _, (cell?_eq_some.mp hcell).1, hagrees.trans ?_⟩
  exact ⟨huntouched.spec, huntouched.record, huntouched.removed⟩

theorem tells_of_waiting (hturns : op.TurnsTo pid stage call next) (hwaiting : r.Waiting slot b task op stage)
    (now : Moment) (reply : Reply)
    : r.Tells slot b task next now reply := by
  have htidy := tidy_of_reachable h
  rcases hwaiting.table with ⟨b', hb', hagrees⟩
  rcases exists_cell? hb' with ⟨c, hc, rfl⟩
  have hduty := duty_of_task? hc hwaiting.waits
  refine ⟨?_, ?_, ?_⟩
  . rintro f rfl
    exact withdraws_of_move h hc hduty (.inl (hturns.proceed_failed r.limits now c.box f))
  . rintro message rfl
    exact withdraws_of_move h hc hduty (.inr ⟨message, hturns.proceed_panicked r.limits now c.box message, rfl⟩)
  . intro hfailed hpanicked
    have hslot : (Event.reply now task reply).slot? r = some slot := slot?_of_duty rfl hc hduty
    have hchanges := changes_step htidy hc hslot
    have hfits := (sound_of_reachable h hc).fits task op stage hduty
    have hmove := hturns.proceed_otherwise hfits r.limits now hfailed hpanicked
    rw [Cell.step_reply_work hduty, hmove] at hchanges
    have hresult : (r.step (.reply now task reply)).2.filterMap Effect.result? = [(task, .ok ())] := by
      rw [hchanges.2]
      exact c.results_finish r.limits r.nextTask task op rfl
    refine ⟨hresult, gone_of_results htidy hresult, _, c.box.record.tick now, hchanges.1.box, ?_⟩
    have hbox := c.box_apply r.limits r.nextTask task op
      { box := { c.box with record := { c.box.record with status := next, lastUpdated := c.box.record.tick now } },
        next := .finish (.ok ()) }
    refine ⟨hbox.1.trans hagrees.spec, hbox.2.2.trans hagrees.removed, hbox.2.1.trans ?_⟩
    rw [hagrees.record]

end Answer

/--
An operation waits for its answer in a run, or else the first answer has told the caller what became of it.
-/
def Turns (r : Registry) (slot : Slot) (b : Box) (task : TaskId) (op : Operation) (stage : Stage) (next : Status)
    (es : List Event) : Prop :=
  (r.after es).Waiting slot b task op stage ∧ (∀ now reply, .reply now task reply ∉ es) ∨
    ∃ past now reply rest, es = past ++ .reply now task reply :: rest ∧
      (∀ now reply, .reply now task reply ∉ past) ∧ (r.after past).Waiting slot b task op stage ∧
      (r.after past).Tells slot b task next now reply

theorem turns_of_waiting (h : Reachable limits (fun _ _ => True) r) (hturns : op.TurnsTo pid stage call next)
    (hwaiting : r.Waiting slot b task op stage) (es : List Event)
    : r.Turns slot b task op stage next es := by
  have hkeep : ∀ r e, Reachable limits (fun _ _ => True) r → r.Waiting slot b task op stage →
      (∀ now reply, e ≠ .reply now task reply) → (r.step e).1.Waiting slot b task op stage :=
    fun r e hr hwaiting haside => waiting_aside hr hwaiting haside
  rcases h.until_reply hkeep hwaiting es fun _ _ _ => trivial with
    hunanswered | ⟨past, now, reply, rest, rfl, hpast, hwaiting⟩
  . exact .inl hunanswered
  . have hthen : Reachable limits (fun _ _ => True) (r.after past) := h.after fun _ _ _ => trivial
    exact .inr ⟨past, now, reply, rest, rfl, hpast, hwaiting, tells_of_waiting hthen hturns hwaiting now reply⟩

theorem step_ask (h : Reachable limits (fun _ _ => True) r) (hc : r.cell? slot = some c)
    (hop : op = .pause ∨ op = .resume) (hduty : c.duty task = some (.enter op)) (hclaim : (c.box.claim task).1 = true)
    (hallowed : c.box.refusal? op = none) (now : Moment)
    : ∃ pid stage call next, op.TurnsTo pid stage call next ∧ c.box.record.pid = some pid ∧
        (r.step (.turn now task)).2 = [.call task call .unlimited] ∧
        (r.step (.turn now task)).1.Waiting slot c.box task op stage := by
  rcases Box.refusal?_eq_none_iff.mp hallowed with ⟨hlisted, hallowed⟩
  have hactive := Operation.TurnsTo.isActive hop hallowed
  rcases (sound_of_reachable h hc).coherent.exists_runs hactive with ⟨pid, hruns⟩
  rcases Operation.TurnsTo.exists_of_operation hop pid with ⟨stage, call, next, hturns⟩
  have huntouched := c.box.untouched_claim task
  have henter : op.enter (c.box.claim task).2 = (c.box.claim task).2.await stage := by
    apply hturns.enter_eq
    . rw [huntouched.removed, hlisted]
    . rw [huntouched.record, hallowed]
    . rw [huntouched.record, hruns.pid]
  have hslot : (Event.turn now task).slot? r = some slot := slot?_of_duty rfl hc hduty
  have hchanges := changes_step (tidy_of_reachable h) hc hslot
  rcases hturns.call_eq (c.box.claim task).2.spec r.limits with ⟨hcall, hbound⟩
  have hstep : c.step r.limits r.nextTask slot (.turn now task) =
      (({ c with box := (c.box.claim task).2 } : Cell).assign task (.work op stage), [.call task call .unlimited]) := by
    rw [Cell.step_enter hduty hclaim, henter, ← hcall, ← hbound]
    rfl
  rw [hstep] at hchanges
  refine ⟨pid, stage, call, next, hturns, hruns.pid, hchanges.2, ?_, ?_⟩
  . apply task?_of_duty hchanges.1.cell
    simp [Cell.duty_assign]
  . exact ⟨_, hchanges.1.box, huntouched.spec, huntouched.record, huntouched.removed⟩

theorem begin_eq_error_iff (h : r.Indexed) {s : Service} (hs : s.registry = r) (hopen : s.closed = false) (key : String)
    (op : Operation) (f : Fault)
    : s.begin key op = .error f ↔ f = .notFound key ∧ ∀ b ∈ r.registered, b.spec.answersTo key = false := by
  subst hs
  have hgate : s.gate = .ok () := by simp [Service.gate, hopen]
  rw [← lookup_eq_notFound_iff h key]
  simp only [Service.begin, hgate, bind, Except.bind]
  cases hlookup : s.registry.lookup key with
  | ok slot => simp [pure, Except.pure]
  | error f' =>
    rw [lookup_eq_error hlookup]
    simp [eq_comm]

/--
Where the faults come from that a caller is given who has a box suspended or has it go on. A call that is not begun had
a key that fits no box. When its task gets hold of the box it is refused if the box was removed or its status does not
allow it, and otherwise the backend is asked once. A fault of the backend is handed on as it is, whatever its kind, and
nothing comes of the call. The backend of the tests has a fault for a process that it does not know any more and one
for a process that has ended.
-/
theorem faults_are_handed_on (h : Reachable limits (fun _ _ => True) r) (hop : op = .pause ∨ op = .resume)
    : (∀ s : Service, s.registry = r → s.closed = false → ∀ key f,
        s.begin key op = .error f ↔ f = .notFound key ∧ ∀ b ∈ r.registered, b.spec.answersTo key = false) ∧
      (∀ slot b task, r.boxes[slot]? = some b → r.task? task = some ⟨slot, .enter op⟩ → (b.claim task).1 = true →
        ∀ now, (∀ f, b.refusal? op = some f → r.Withdraws slot task f (.turn now task)) ∧
          (b.refusal? op = none → ∃ pid stage call next, op.TurnsTo pid stage call next ∧ b.record.pid = some pid ∧
            (r.step (.turn now task)).2 = [.call task call .unlimited] ∧
            ∀ es, (r.step (.turn now task)).1.Turns slot b task op stage next es)) ∧
      ∀ (backend : Simulation.Backend) (pid : Pid) (paused : Bool) (f : Fault),
        (backend.setPaused pid paused).2 = .failed f ↔
          (backend.process? pid = none ∧ f = .notFound ("pid " ++ toString pid)) ∨
            ∃ p, backend.process? pid = some p ∧ p.ending.isSome = true ∧
              f = .engine ("pid " ++ toString pid ++ " has exited") := by
  refine ⟨fun s hs hopen key f => begin_eq_error_iff (indexed_of_reachable h) hs hopen key op f, ?_, ?_⟩
  . intro slot b task hb htask hclaim now
    rcases exists_cell? hb with ⟨c, hc, rfl⟩
    have hduty := duty_of_task? hc htask
    refine ⟨fun f hrefusal => withdraws_of_refusal h hc hduty hclaim hrefusal now, ?_⟩
    intro hallowed
    rcases step_ask h hc hop hduty hclaim hallowed now with ⟨pid, stage, call, next, hturns, hpid, hasked, hwaiting⟩
    exact ⟨pid, stage, call, next, hturns, hpid, hasked,
      fun es => turns_of_waiting (h.step trivial) hturns hwaiting es⟩
  . intro backend pid paused f
    unfold Simulation.Backend.setPaused
    cases backend.process? pid with
    | none =>
      simp only [Simulation.Backend.unknown, Reply.failed.injEq, true_and, reduceCtorEq, false_and, exists_false,
        or_false]
      exact eq_comm
    | some p =>
      dsimp only
      split
      . next hended =>
        simp only [Reply.failed.injEq, reduceCtorEq, false_and, false_or, Option.some.injEq, exists_eq_left', hended,
          true_and]
        exact eq_comm
      . next hruns => simp [hruns]

def aboutToPause : List Event :=
  launchAndWatch ++ [.begin 0 .pause]

theorem faults_are_handed_on_lostProcess
    : let r := ({} : Registry).after aboutToPause
      let asked := (r.step (.turn ⟨1, 0⟩ 2)).1
      (({} : Simulation.Backend).setPaused 7 true).2 = .failed (.notFound "pid 7") ∧
        asked.Withdraws 0 2 (.notFound "pid 7") (.reply ⟨1, 0⟩ 2 (.failed (.notFound "pid 7"))) ∧
        ∃ b, (asked.step (.reply ⟨1, 0⟩ 2 (.failed (.notFound "pid 7")))).1.boxes[0]? = some b ∧ b.removed = false ∧
          b.record.status = .running := by
  intro r asked
  have hreachable : Reachable {} (fun _ _ => True) r := Reachable.start.after fun _ _ _ => trivial
  rcases faults_are_handed_on hreachable (.inl rfl) with ⟨-, hcalls, hbackend⟩
  refine ⟨(hbackend {} 7 true _).mpr (.inl ⟨rfl, rfl⟩), ?_, _, rfl, rfl, rfl⟩
  rcases (hcalls 0 _ 2 rfl rfl rfl ⟨1, 0⟩).2 rfl with ⟨pid, stage, call, next, -, -, -, hturns⟩
  rcases hturns [.reply ⟨1, 0⟩ 2 (.failed (.notFound "pid 7"))] with
    ⟨-, hunanswered⟩ | ⟨past, now, reply, rest, heq, -, -, htells⟩
  . exact absurd List.mem_cons_self (hunanswered ⟨1, 0⟩ _)
  . cases past with
    | cons e past => simp at heq
    | nil =>
      cases heq
      exact htells.failed _ rfl

end Registry

end BoxRegistry
