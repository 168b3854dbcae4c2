import BoxRegistry.Proofs.Registry.ExitWatch
import BoxRegistry.Proofs.Registry.Listing
import BoxRegistry.Proofs.Registry.Suspension

namespace BoxRegistry

open Time (Moment)

theorem Reply.launch_eq_ok_iff {limits : Limits} {reply : Reply} {pid : Pid}
    : reply.launch limits = .ok pid ↔ reply = .launched pid := by
  cases reply <;> simp [launch]

theorem Status.next?_ne_created (s : Status) (t : Transition) : s.next? t ≠ some .created := by
  cases s <;> cases t <;> decide

namespace Record

variable {r : Record}

theorem Coherent.exists_of_created (h : r.Coherent) (hcreated : r.status = .created)
    : ∃ moment, r = ⟨.created, none, none, none, none, moment⟩ := by
  have hpid : r.pid = none := by
    rw [← Option.not_isSome_iff_eq_none, h.process, hcreated]
    decide
  have hended : r.endedAt = none := by
    rw [← Option.not_isSome_iff_eq_none, h.ended, hcreated]
    decide
  have hending := h.ending_eq_none (by rw [hcreated]; rfl)
  have hstarted := h.started.mpr (.inl hcreated)
  rcases r with ⟨status, pid, startedAt, endedAt, ending, lastUpdated⟩
  cases hcreated
  cases hpid
  cases hended
  cases hending
  cases hstarted
  exact ⟨lastUpdated, rfl⟩

theorem Coherent.markRunning_eq (h : r.Coherent) (hcreated : r.status = .created) (now : Moment) (pid : Pid)
    : r.markRunning now pid = .ok ⟨.running, some pid, some (r.tick now), none, none, r.tick now⟩ := by
  rcases h.exists_of_created hcreated with ⟨moment, rfl⟩
  rfl

theorem Coherent.markStartFailed_eq (h : r.Coherent) (hcreated : r.status = .created) (now : Moment)
    (message : String)
    : r.markStartFailed now message =
      .ok ⟨.failed, none, none, some (r.tick now), some (.startFailed message), r.tick now⟩ := by
  rcases h.exists_of_created hcreated with ⟨moment, rfl⟩
  rfl

end Record

namespace Registry

variable {limits : Limits} {allowed : Registry → Event → Prop} {r : Registry} {slot : Slot} {task : TaskId} {c : Cell}
  {b : Box}

section Order

/--
The order of a launch is what was asked for when the box at a place was created, under the id that its creator was
given. What was not asked for has its default.
-/
def Ordered (r : Registry) (es : List Event) (slot : Slot) (order : LaunchOrder) : Prop :=
  ∃ past request now clock chance rest snapshot r',
    es = past ++ .create request now clock chance :: rest ∧ (r.after past).boxes.length = slot ∧
      (r.after past).create request now clock chance = .ok (snapshot, r') ∧
      order =
        { boxId := snapshot.id, image := request.image, cpus := request.cpus.getD Resources.default.cpus,
          memoryMib := request.memoryMib.getD Resources.default.memoryMib, args := request.args, env := request.env }

theorem ordered_of_box (h : Reachable limits (fun _ _ => True) r) (hnone : r.boxes[slot]? = none) {es : List Event}
    (hb : (r.after es).boxes[slot]? = some b)
    : r.Ordered es slot b.spec.launchOrder := by
  induction es generalizing r with
  | nil =>
    rw [after_nil, hnone] at hb
    cases hb
  | cons e es ih =>
    have hlater := h.step (e := e) trivial
    cases hnow : (r.step e).1.boxes[slot]? with
    | none =>
      rcases ih hlater hnow hb with ⟨past, request, now, clock, chance, rest, snapshot, r', rfl, hcreated⟩
      exact ⟨e :: past, request, now, clock, chance, rest, snapshot, r', rfl, hcreated⟩
    | some b₁ =>
      rcases exists_cell? hnow with ⟨c, hc, rfl⟩
      rcases create_of_added (tidy_of_reachable h) (cell?_eq_none.mpr hnone) hc with
        ⟨request, now, clock, chance, granted, number, ids, rfl, rfl, hgranted, hspec, hcreate⟩
      rcases spec_after hlater hnow es with ⟨b', hb', hsame⟩
      rw [after_cons, hb'] at hb
      cases hb
      refine ⟨[], request, now, clock, chance, es, _, _, rfl, rfl, hcreate, ?_⟩
      rcases Request.granted_of_resolve hgranted with ⟨hcpus, hmemory⟩
      rw [hsame, hspec]
      simp [Spec.launchOrder, Spec.freeze, Snapshot.of, hcpus, hmemory]

end Order

structure Launching (r : Registry) (slot : Slot) (b : Box) (task : TaskId) : Prop where
  waits : r.task? task = some ⟨slot, .work .start .launching⟩
  table : ∃ b', r.boxes[slot]? = some b' ∧ b.Agrees b'

structure Started (r : Registry) (slot : Slot) (b : Box) (task : TaskId) (pid : Pid) (e : Event) : Prop where
  result : (r.step e).2.filterMap Effect.result? = [(task, .ok ())]
  gone : (r.step e).1.task? task = none
  box : ∃ b' moment, (r.step e).1.boxes[slot]? = some b' ∧ b'.spec = b.spec ∧ b'.removed = false ∧
    b'.record = ⟨.running, some pid, some moment, none, none, moment⟩
  watched : ∃ w, ∀ t p, (r.step e).1.Watcher slot t p ↔ t = w ∧ p = pid

structure FailsToStart (r : Registry) (slot : Slot) (b : Box) (task : TaskId) (message : String) (e : Event) :
    Prop where
  result : (r.step e).2.filterMap Effect.result? = [(task, .error (.startFailed message))]
  gone : (r.step e).1.task? task = none
  box : ∃ b' moment, (r.step e).1.boxes[slot]? = some b' ∧ b'.spec = b.spec ∧ b'.removed = false ∧
    b'.record = ⟨.failed, none, none, some moment, some (.startFailed message), moment⟩
  unwatched : ∀ t p, ¬(r.step e).1.Watcher slot t p

theorem Started.of_spec {b' : Box} {pid : Pid} {e : Event} (h : r.Started slot b' task pid e) (hspec : b'.spec = b.spec)
    : r.Started slot b task pid e :=
  ⟨h.result, h.gone, hspec ▸ h.box, h.watched⟩

theorem FailsToStart.of_spec {b' : Box} {message : String} {e : Event} (h : r.FailsToStart slot b' task message e)
    (hspec : b'.spec = b.spec)
    : r.FailsToStart slot b task message e :=
  ⟨h.result, h.gone, hspec ▸ h.box, h.unwatched⟩

structure Decides (r : Registry) (slot : Slot) (b : Box) (task : TaskId) (now : Moment) (reply : Reply) : Prop where
  launched : ∀ pid, reply = .launched pid → r.Started slot b task pid (.reply now task reply)
  otherwise : (∀ pid, reply ≠ .launched pid) →
    ∃ message, reply.launch r.limits = .error message ∧ r.FailsToStart slot b task message (.reply now task reply)

section Launch

variable (h : Reachable limits (fun _ _ => True) r) (hc : r.cell? slot = some c)
include h hc

theorem step_launch (hlisted : c.box.removed = false) (hcreated : c.box.record.status = .created)
    (hduty : c.duty task = some (.enter .start)) (hclaim : (c.box.claim task).1 = true) (now : Moment)
    : (r.step (.turn now task)).2 = [.call task (.launch c.box.spec.launchOrder) (.within r.limits.start)] ∧
      (r.step (.turn now task)).1.Launching slot c.box task := by
  have hslot : (Event.turn now task).slot? r = some slot := slot?_of_duty rfl hc hduty
  have hchanges := changes_step (tidy_of_reachable h) hc hslot
  have huntouched := c.box.untouched_claim task
  have henter : Operation.start.enter (c.box.claim task).2 = (c.box.claim task).2.await .launching := by
    simp [Operation.enter, huntouched.removed, huntouched.record, hlisted, hcreated, Status.apply, Status.next?]
  have hstep : c.step r.limits r.nextTask slot (.turn now task) =
      (({ c with box := (c.box.claim task).2 } : Cell).assign task (.work .start .launching),
        [.call task (.launch (c.box.claim task).2.spec.launchOrder) (.within r.limits.start)]) := by
    rw [Cell.step_enter hduty hclaim, henter]
    rfl
  rw [hstep] at hchanges
  refine ⟨?_, ?_, ?_⟩
  . rw [hchanges.2, huntouched.spec]
  . apply task?_of_duty hchanges.1.cell
    simp [Cell.duty_assign]
  . exact ⟨_, hchanges.1.box, huntouched.spec, huntouched.record, huntouched.removed⟩

theorem launching_aside (hlaunching : r.Launching slot b task) {e : Event} (he : ∀ now reply, e ≠ .reply now task reply)
    : (r.step e).1.Launching slot b task := by
  have htidy := tidy_of_reachable h
  have hcell := (evolves htidy e).cell slot c hc
  have hduty := duty_of_task? hc hlaunching.waits
  rcases hlaunching.table with ⟨b', hb', hagrees⟩
  obtain rfl : c.box = b' := Option.some.inj ((cell?_eq_some.mp hc).1.symm.trans hb')
  rcases (sound_of_reachable h hc).work_aside (below_of_tidy htidy hc) hduty r.limits slot he with ⟨hkept, huntouched⟩
  refine ⟨task?_of_duty hcell hkept, _, (cell?_eq_some.mp hcell).1, hagrees.trans ?_⟩
  exact ⟨huntouched.spec, huntouched.record, huntouched.removed⟩

end Launch

section Answer

variable (h : Reachable limits allowed r) (hc : r.cell? slot = some c)
  (hduty : c.duty task = some (.work .start .launching))
include h hc hduty

theorem created_of_launching : c.box.record.status = .created ∧ c.box.removed = false :=
  ((sound_of_reachable h hc).fits task _ _ hduty).2

theorem step_answer {now : Moment} {reply : Reply} {m : Move} {result : Except Fault Unit}
    (hm : Operation.start.proceed r.limits now c.box .launching reply = m) (hnext : m.next = .finish result)
    : let out := c.apply r.limits r.nextTask task .start m
      Changes r (r.step (.reply now task reply)).1 slot out.1 ∧ out.1.Sound ∧
        (r.step (.reply now task reply)).2.filterMap Effect.result? = [(task, result)] ∧
        (r.step (.reply now task reply)).1.task? task = none ∧
        ∃ b', (r.step (.reply now task reply)).1.boxes[slot]? = some b' ∧ b'.spec = m.box.spec ∧
          b'.removed = m.box.removed ∧ b'.record = m.box.record := by
  have htidy := tidy_of_reachable h
  have hslot : (Event.reply now task reply).slot? r = some slot := slot?_of_duty rfl hc hduty
  have hchanges := changes_step htidy hc hslot
  have hsound := (sound_of_reachable h hc).step (below_of_tidy htidy hc) r.limits slot (.reply now task reply)
  rw [Cell.step_reply_work hduty, hm] at hchanges hsound
  have hresults : (r.step (.reply now task reply)).2.filterMap Effect.result? = [(task, result)] := by
    rw [hchanges.2]
    exact c.results_finish r.limits r.nextTask task .start hnext
  have hbox := c.box_apply r.limits r.nextTask task .start m
  exact ⟨hchanges.1, hsound, hresults, gone_of_results htidy hresults, _, hchanges.1.box, hbox.1, hbox.2.2, hbox.2.1⟩

theorem started_of_launched (now : Moment) (pid : Pid)
    : r.Started slot c.box task pid (.reply now task (.launched pid)) := by
  rcases created_of_launching h hc hduty with ⟨hcreated, hlisted⟩
  have hmarked := (coherent_of_reachable h hc).markRunning_eq hcreated now pid
  have hmove : ∃ m, Operation.start.proceed r.limits now c.box .launching (.launched pid) = m ∧
      m.box = { c.box with
        record := ⟨.running, some pid, some (c.box.record.tick now), none, none, c.box.record.tick now⟩ } ∧
      m.deeds = [.count .started, .watch pid] ∧ m.next = .finish (.ok ()) := by
    simp only [Operation.proceed, Reply.launch, Box.succeedStart, hmarked]
    exact ⟨_, rfl, rfl, rfl, rfl⟩
  rcases hmove with ⟨m, hm, hbox, hdeeds, hnext⟩
  rcases step_answer h hc hduty hm hnext with ⟨hchanges, hsound, hresults, hgone, b', hb', hspec, hremoved, hrecord⟩
  rw [hbox] at hspec hremoved hrecord
  have hne : task ≠ r.nextTask := Nat.ne_of_lt ((below_of_tidy (tidy_of_reachable h) hc).duty task _ hduty)
  rcases c.watch_apply r.limits hne .start [.started] hdeeds hnext with ⟨hwatch, hpost⟩
  exact ⟨hresults, hgone, ⟨b', _, hb', hspec, hremoved.trans hlisted, hrecord⟩, r.nextTask,
    watcher_of_duty hchanges.cell hsound hwatch hpost rfl⟩

theorem failsToStart_of_error {reply : Reply} {message : String} (hreply : reply.launch r.limits = .error message)
    (now : Moment)
    : r.FailsToStart slot c.box task message (.reply now task reply) := by
  rcases created_of_launching h hc hduty with ⟨hcreated, hlisted⟩
  have hmarked := (coherent_of_reachable h hc).markStartFailed_eq hcreated now message
  have hmove : ∃ m, Operation.start.proceed r.limits now c.box .launching reply = m ∧
      m.box = { c.box with
        record :=
          ⟨.failed, none, none, some (c.box.record.tick now), some (.startFailed message), c.box.record.tick now⟩ } ∧
      m.next = .finish (.error (.startFailed message)) := by
    simp only [Operation.proceed, hreply, Box.failStart, hmarked]
    exact ⟨_, rfl, rfl, rfl⟩
  rcases hmove with ⟨m, hm, hbox, hnext⟩
  rcases step_answer h hc hduty hm hnext with ⟨hchanges, hsound, hresults, hgone, b', hb', hspec, hremoved, hrecord⟩
  rw [hbox] at hspec hremoved hrecord
  refine ⟨hresults, hgone, ⟨b', _, hb', hspec, hremoved.trans hlisted, hrecord⟩, ?_⟩
  apply not_watcher_of_inactive hchanges.cell hsound
  obtain rfl := Option.some.inj (hchanges.box.symm.trans hb')
  rw [hrecord]
  rfl

end Answer

theorem decides_of_launching (h : Reachable limits (fun _ _ => True) r) (hlaunching : r.Launching slot b task)
    (now : Moment) (reply : Reply)
    : r.Decides slot b task now reply := by
  rcases hlaunching.table with ⟨b', hb', hagrees⟩
  rcases exists_cell? hb' with ⟨c, hc, rfl⟩
  have hduty := duty_of_task? hc hlaunching.waits
  refine ⟨?_, ?_⟩
  . rintro pid rfl
    exact (started_of_launched h hc hduty now pid).of_spec hagrees.spec
  . intro hother
    cases hreply : reply.launch r.limits with
    | ok pid => exact absurd (Reply.launch_eq_ok_iff.mp hreply) (hother pid)
    | error message => exact ⟨message, rfl, (failsToStart_of_error h hc hduty hreply now).of_spec hagrees.spec⟩

theorem not_created_after (h : Reachable limits (fun _ _ => True) r) (hb : r.boxes[slot]? = some b)
    (hstatus : b.record.status ≠ .created) (es : List Event) {b' : Box} (hb' : (r.after es).boxes[slot]? = some b')
    : b'.record.status ≠ .created := by
  induction es generalizing r b with
  | nil =>
    rw [after_nil, hb] at hb'
    cases hb'
    exact hstatus
  | cons e es ih =>
    rcases exists_cell? hb with ⟨c, hc, rfl⟩
    rcases becomes_step h hc e with ⟨c₁, hc₁, -, now, hbecomes⟩
    apply ih (h.step trivial) (cell?_eq_some.mp hc₁).1 ?_ hb'
    rcases hbecomes.status with heq | ⟨t, hnext⟩
    . rwa [heq]
    . intro hcreated
      rw [hcreated] at hnext
      exact Status.next?_ne_created _ t hnext

theorem Decides.not_created {now : Moment} {reply : Reply} (h : r.Decides slot b task now reply) {b' : Box}
    (hb' : (r.step (.reply now task reply)).1.boxes[slot]? = some b')
    : b'.record.status ≠ .created := by
  by_cases hlaunched : ∃ pid, reply = .launched pid
  . rcases hlaunched with ⟨pid, hreply⟩
    rcases (h.launched pid hreply).box with ⟨b₁, moment, hb₁, -, -, hrecord⟩
    obtain rfl := Option.some.inj (hb'.symm.trans hb₁)
    simp [hrecord]
  . rcases h.otherwise (by simpa using hlaunched) with ⟨message, -, hfails⟩
    rcases hfails.box with ⟨b₁, moment, hb₁, -, -, hrecord⟩
    obtain rfl := Option.some.inj (hb'.symm.trans hb₁)
    simp [hrecord]

/--
What becomes of a launch in a run: it is waited for, or else the first answer has decided the start, and the box was
never again as if it was not started.
-/
def Awaits (r : Registry) (slot : Slot) (b : Box) (task : TaskId) (es : List Event) : Prop :=
  (r.after es).Launching slot b task ∧ (∀ now reply, .reply now task reply ∉ es) ∨
    ∃ past now reply rest, es = past ++ .reply now task reply :: rest ∧
      (∀ now reply, .reply now task reply ∉ past) ∧ (r.after past).Launching slot b task ∧
      (r.after past).Decides slot b task now reply ∧
      ∀ b', (r.after es).boxes[slot]? = some b' → b'.record.status ≠ .created

theorem awaits_of_launching (h : Reachable limits (fun _ _ => True) r) (hlaunching : r.Launching slot b task)
    (es : List Event)
    : r.Awaits slot b task es := by
  have hkeep : ∀ r e, Reachable limits (fun _ _ => True) r → r.Launching slot b task →
      (∀ now reply, e ≠ .reply now task reply) → (r.step e).1.Launching slot b task := by
    intro r e hr hlaunching haside
    rcases hlaunching.table with ⟨b₀, hb₀, -⟩
    rcases exists_cell? hb₀ with ⟨c, hc, -⟩
    exact launching_aside hr hc hlaunching haside
  rcases h.until_reply hkeep hlaunching es fun _ _ _ => trivial with
    hunanswered | ⟨past, now, reply, rest, rfl, hpast, hlaunching⟩
  . exact .inl hunanswered
  . have hthen : Reachable limits (fun _ _ => True) (r.after past) := h.after fun _ _ _ => trivial
    have hdecides := decides_of_launching hthen hlaunching now reply
    refine .inr ⟨past, now, reply, rest, rfl, hpast, hlaunching, hdecides, ?_⟩
    intro b' hb'
    rcases hlaunching.table with ⟨b₀, hb₀, -⟩
    rcases exists_cell? hb₀ with ⟨c, hc, -⟩
    have hcell := (evolves (tidy_of_reachable hthen) (.reply now task reply)).cell slot c hc
    have hnow := (cell?_eq_some.mp hcell).1
    rw [after_append, after_cons] at hb'
    exact not_created_after (hthen.step trivial) hnow (hdecides.not_created hnow) rest hb'

/--
The start of a box that was not started yet is decided by one answer. The backend is asked once, within the time that
a start may take, to launch what was asked for when the box was created. If it launches a process in time then the
start succeeds and the box runs that process. Otherwise the start fails, for the reason that is on record.
-/
theorem start_is_decided (limits : Limits) (past : List Event)
    (hb : (({ limits } : Registry).after past).boxes[slot]? = some b) (hlisted : b.removed = false)
    (hcreated : b.record.status = .created)
    (htask : (({ limits } : Registry).after past).task? task = some ⟨slot, .enter .start⟩)
    (hclaim : (b.claim task).1 = true) (now : Moment) (es : List Event)
    : let r := ({ limits } : Registry).after past
      ∃ order, Registry.Ordered { limits } past slot order ∧
        (r.step (.turn now task)).2 = [.call task (.launch order) (.within limits.start)] ∧
        (r.step (.turn now task)).1.Awaits slot b task es := by
  have hreachable : Reachable limits (fun _ _ => True) (({ limits } : Registry).after past) :=
    Reachable.start.after fun _ _ _ => trivial
  rcases exists_cell? hb with ⟨c, hc, rfl⟩
  have hduty := duty_of_task? hc htask
  rcases step_launch hreachable hc hlisted hcreated hduty hclaim now with ⟨hcall, hlaunching⟩
  rw [limits_after (tidy_start limits)] at hcall
  exact ⟨_, ordered_of_box .start rfl hb, hcall, awaits_of_launching (hreachable.step trivial) hlaunching es⟩

def aboutToStart : List Event :=
  [.create { name := some "web", image := "alpine", cpus := some 1, args := ["-v"] } ⟨0, 0⟩ 1 0, .begin 0 .start]

theorem start_is_decided_late
    : let r := ({} : Registry).after aboutToStart
      ∃ b order, r.boxes[0]? = some b ∧ Registry.Ordered {} aboutToStart 0 order ∧ order.args = ["-v"] ∧
        (r.step (.turn ⟨1, 0⟩ 0)).2 = [.call 0 (.launch order) (.within ({} : Limits).start)] ∧
        (r.step (.turn ⟨1, 0⟩ 0)).1.FailsToStart 0 b 0 "launch did not complete within 30s"
          (.reply ⟨31, 0⟩ 0 .late) := by
  intro r
  have hdecided := @start_is_decided 0 0 _ {} aboutToStart rfl rfl rfl rfl rfl ⟨1, 0⟩ [.reply ⟨31, 0⟩ 0 .late]
  rcases hdecided with
    ⟨order, hordered, hcall, ⟨-, hunanswered⟩ | ⟨past, now, reply, rest, heq, -, -, hdecides, -⟩⟩
  . exact absurd List.mem_cons_self (hunanswered ⟨31, 0⟩ .late)
  . cases past with
    | cons e past => simp at heq
    | nil =>
      cases heq
      rcases hdecides.otherwise (by simp) with ⟨message, hmessage, hfails⟩
      cases hmessage
      refine ⟨_, order, rfl, hordered, ?_, hcall, hfails⟩
      injection hcall with hcall
      injection hcall with _ hcall
      injection hcall with hcall
      rw [← hcall]
      rfl

end Registry

end BoxRegistry
