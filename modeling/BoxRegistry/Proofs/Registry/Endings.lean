import BoxRegistry.Proofs.Lifecycle.Course
import BoxRegistry.Proofs.Registry.Exclusion
import BoxRegistry.Proofs.Registry.ExitWatch

namespace BoxRegistry

open Time (Moment)

namespace ProcessEnd

def signalBits (w : BitVec 32) : Nat :=
  (w.extractLsb' 0 7).toNat

def codeBits (w : BitVec 32) : Nat :=
  (w.extractLsb' 8 8).toNat

def code? (w : BitVec 32) : Option Int :=
  if signalBits w = 0 then some (codeBits w) else none

def signal? (w : BitVec 32) : Option Int :=
  if signalBits w = 0 ∨ signalBits w = 127 then none else some (signalBits w)

theorem signalBits_lt (w : BitVec 32) : signalBits w < 128 :=
  (w.extractLsb' 0 7).isLt

theorem codeBits_lt (w : BitVec 32) : codeBits w < 256 :=
  (w.extractLsb' 8 8).isLt

theorem toNat_and_eq_signalBits (w : BitVec 32) : (w &&& 0x7F#32).toNat = signalBits w := by
  rw [signalBits, BitVec.extractLsb'_toNat, Nat.shiftRight_zero, BitVec.toNat_and]
  exact Nat.and_two_pow_sub_one_eq_mod w.toNat 7

theorem toNat_and_eq_codeBits (w : BitVec 32) : ((w >>> 8) &&& 0xFF#32).toNat = codeBits w := by
  rw [codeBits, BitVec.extractLsb'_toNat, BitVec.toNat_and, BitVec.toNat_ushiftRight]
  exact Nat.and_two_pow_sub_one_eq_mod (w.toNat >>> 8) 8

theorem ofWaitStatus_eq (w : BitVec 32) : ofWaitStatus w = ⟨code? w, signal? w⟩ := by
  simp only [ofWaitStatus, toNat_and_eq_signalBits, toNat_and_eq_codeBits, code?, signal?]
  by_cases hreturned : signalBits w = 0
  . simp [hreturned, exited]
  . by_cases hunknown : signalBits w = 127
    . simp [hunknown]
    . simp [hreturned, hunknown, signaled]

structure Sensible (how : ProcessEnd) : Prop where
  one : how.code = none ∨ how.signal = none
  code : ∀ code, how.code = some code → 0 ≤ code ∧ code ≤ 255
  signal : ∀ signal, how.signal = some signal → 1 ≤ signal ∧ signal ≤ 126

theorem sensible_ofWaitStatus (w : BitVec 32) : (ofWaitStatus w).Sensible := by
  have hsignal := signalBits_lt w
  have hcode := codeBits_lt w
  rw [ofWaitStatus_eq]
  refine ⟨?_, ?_, ?_⟩
  . dsimp only [code?, signal?]
    by_cases hreturned : signalBits w = 0
    . exact .inr (by simp [hreturned])
    . exact .inl (by simp [hreturned])
  . intro code h
    simp only [code?, Option.ite_none_right_eq_some, Option.some.injEq] at h
    omega
  . intro signal h
    simp only [signal?, Option.ite_none_left_eq_some, Option.some.injEq] at h
    omega

end ProcessEnd

open ProcessEnd (ofWaitStatus ofWaitStatus_eq signalBits codeBits code? signal?)

/--
A record is closed at a moment by what was learned about the process: a wait status, or why there is none.
-/
structure Record.ClosedBy (before : Record) (now : Moment) (learned : Except Fault (BitVec 32)) (after : Record) :
    Prop where
  active : before.status.isActive = true
  returned : ∀ w, learned = .ok w → before.status = .running → signalBits w = 0 →
    after = before.finish now .exited (.exited (codeBits w))
  killed : ∀ w, learned = .ok w → before.status = .running → signalBits w ≠ 0 →
    after = before.finish now .failed (.crashed (signal? w))
  lost : ∀ f, learned = .error f → before.status = .running →
    after = before.finish now .failed (.backendError f.message)
  terminated : ∀ w, learned = .ok w → before.status = .paused →
    after = before.finish now .stopped (.terminated (code? w) (signal? w))
  lostAsPaused : ∀ f, learned = .error f → before.status = .paused →
    after = before.finish now .stopped (.backendError f.message)
  accepted : before.status.apply (before.status.closing (learned.map ofWaitStatus)).1 = .ok after.status
  ended : after.status.isTerminal = true

namespace Record

variable {before after : Record} {now : Moment}

theorem closedBy_of_marked {learned : Except Fault (BitVec 32)}
    (h : before.markTerminated now (before.status.closing (learned.map ofWaitStatus)).1
      (before.status.closing (learned.map ofWaitStatus)).2 = .ok after)
    : before.ClosedBy now learned after := by
  rcases eq_finish_of_markTerminated h with ⟨haccepted, hended, hafter⟩
  have hactive := isActive_of_closing haccepted
  -- The table of transitions decides the status, once that of the box and what was learned are known.
  have hfinish : ∀ t ending next, before.status.closing (learned.map ofWaitStatus) = (t, ending) →
      before.status.next? t = some next → after = before.finish now next ending := by
    intro t ending next hclosing hnext
    rw [hclosing] at haccepted hafter
    rwa [Option.some.inj ((Status.apply_eq_ok_iff.mp haccepted).symm.trans hnext)] at hafter
  refine ⟨hactive, ?_, ?_, ?_, ?_, ?_, haccepted, hended⟩
  . rintro w rfl hrunning hreturned
    apply hfinish .exit
    . simp [hrunning, Except.map, ofWaitStatus_eq, code?, hreturned, Status.closing]
    . rw [hrunning]
      rfl
  . rintro w rfl hrunning hkilled
    apply hfinish .fail
    . simp [hrunning, Except.map, ofWaitStatus_eq, code?, hkilled, Status.closing]
    . rw [hrunning]
      rfl
  . rintro f rfl hrunning
    apply hfinish .fail
    . simp [hrunning, Except.map, Status.closing]
    . rw [hrunning]
      rfl
  . rintro w rfl hpaused
    apply hfinish .stop
    . simp [hpaused, Except.map, ofWaitStatus_eq, Status.closing]
    . rw [hpaused]
      rfl
  . rintro f rfl hpaused
    apply hfinish .stop
    . simp [hpaused, Except.map, Status.closing]
    . rw [hpaused]
      rfl

theorem ClosedBy.cases {w : BitVec 32} (h : before.ClosedBy now (.ok w) after)
    : (signalBits w = 0 ∧ after.status = .exited ∧ after.ending = some (.exited (codeBits w))) ∨
      (signalBits w ≠ 0 ∧ after.status = .failed ∧ after.ending = some (.crashed (signal? w))) ∨
      (after.status = .stopped ∧ after.ending = some (.terminated (code? w) (signal? w))) := by
  cases hstatus : before.status with
  | running =>
    by_cases hreturned : signalBits w = 0
    . exact .inl ⟨hreturned, by rw [h.returned w rfl hstatus hreturned]; exact ⟨rfl, rfl⟩⟩
    . exact .inr (.inl ⟨hreturned, by rw [h.killed w rfl hstatus hreturned]; exact ⟨rfl, rfl⟩⟩)
  | paused =>
    rw [h.terminated w rfl hstatus]
    exact .inr (.inr ⟨rfl, rfl⟩)
  | _ =>
    have hactive := h.active
    rw [hstatus] at hactive
    cases hactive

theorem ClosedBy.end_eq {before' after' : Record} {now' : Moment} {w w' : BitVec 32}
    (h : before.ClosedBy now (.ok w) after) (h' : before'.ClosedBy now' (.ok w') after')
    (hstatus : after.status = after'.status) (hending : after.ending = after'.ending)
    : ofWaitStatus w = ofWaitStatus w' := by
  rw [ofWaitStatus_eq, ofWaitStatus_eq]
  rcases h.cases with ⟨hbits, hs, he⟩ | ⟨hbits, hs, he⟩ | ⟨hs, he⟩ <;>
    rcases h'.cases with ⟨hbits', hs', he'⟩ | ⟨hbits', hs', he'⟩ | ⟨hs', he'⟩ <;>
    simp only [hs, hs', he, he', reduceCtorEq, Option.some.injEq, Ending.exited.injEq, Ending.crashed.injEq,
      Ending.terminated.injEq] at hstatus hending
  . simp only [code?, signal?, hbits, hbits', hending]
  . simp [code?, hbits, hbits', hending]
  . rw [hending.1, hending.2]

end Record

def Reply.telling : Except Fault (BitVec 32) → Reply
  | .ok w => ended (ofWaitStatus w)
  | .error f => failed f

theorem Reply.ending_telling (learned : Except Fault (BitVec 32))
    : (telling learned).ending = learned.map ofWaitStatus := by
  cases learned <;> rfl

theorem Reply.telling_ne_panicked (learned : Except Fault (BitVec 32)) (message : String)
    : telling learned ≠ panicked message := by
  cases learned <;> simp [telling]

namespace Registry

variable {limits : Limits} {r : Registry} {slot : Slot}

def Closed (r : Registry) (slot : Slot) (before : Record) (now : Moment) (learned : Except Fault (BitVec 32)) : Prop :=
  ∃ b, r.boxes[slot]? = some b ∧ before.ClosedBy now learned b.record

theorem Records.closed {b : Box} {now : Moment} {pid : Pid} {learned : Except Fault (BitVec 32)} {e : Event}
    (h : r.Records slot b now pid (learned.map ofWaitStatus) e)
    : (r.step e).1.Closed slot b.record now learned := by
  rcases h with ⟨-, -, record, b', hmarked, -, hb', rfl, -⟩
  exact ⟨b', hb', Record.closedBy_of_marked hmarked⟩

section Watched

variable {allowed : Registry → Event → Prop} {c : Cell} {task : TaskId} {pid : Pid}
  {learned : Except Fault (BitVec 32)}

theorem closed_of_reports (h : Reachable limits allowed r) (hc : r.cell? slot = some c) (now : Moment) {e : Event}
    (hreports : r.Reports slot now task pid (learned.map ofWaitStatus) e) (hclaim : (c.box.claim task).1 = true)
    (hwatch : c.box.watch = some task)
    : (r.step e).1.Closed slot c.box.record now learned :=
  (records_of_reports (tidy_of_reachable h) hc (sound_of_reachable h hc) hreports hclaim hwatch).closed

theorem closed_of_watcher (h : Reachable limits (fun _ _ => True) r) (hc : r.cell? slot = some c)
    (hidle : c.box.holder = none) (hwatcher : r.Watcher slot task pid)
    (hnews : ∀ result, r.task? task = some ⟨slot, .notice pid result⟩ → result = learned.map ofWaitStatus)
    (now : Moment)
    : (r.after [.turn now task, .reply now task (.telling learned)]).Closed slot c.box.record now learned := by
  have hsound := sound_of_reachable h hc
  have hcell := (evolves (tidy_of_reachable h) (.turn now task)).cell slot c hc
  have hlater := h.step (e := .turn now task) trivial
  rcases (watcher_iff hc hsound).mp hwatcher with ⟨hwatch, d, hduty, hpid⟩
  have hclaim : (c.box.claim task).1 = true := Box.claim_eq_true_iff.mpr (.inl hidle)
  have hasks : ∀ c', (r.step (.turn now task)).1.cell? slot = some c' → c'.box = c.box →
      c'.duty task = some (.watch pid) →
      (r.after [.turn now task, .reply now task (.telling learned)]).Closed slot c.box.record now learned := by
    intro c' hc' hbox hwaits
    rw [← hbox] at hwatch hclaim ⊢
    have htold := Reply.telling_ne_panicked learned
    have hending := Reply.ending_telling learned
    exact closed_of_reports hlater hc' now (.ended (task?_of_duty hc' hwaits) htold hending) hclaim hwatch
  cases d with
  | enter op => cases hpid
  | work op stage => cases hpid
  | post p =>
    obtain rfl : p = pid := Option.some.inj hpid
    rw [Cell.step, Cell.turn, hduty] at hcell
    exact hasks _ hcell rfl (by simp [Cell.duty_assign])
  | watch p =>
    obtain rfl : p = pid := Option.some.inj hpid
    rw [Cell.step, Cell.turn, hduty] at hcell
    exact hasks _ hcell rfl hduty
  | notice p result =>
    obtain rfl : p = pid := Option.some.inj hpid
    have htask := task?_of_duty hc hduty
    have hnow := hnews result htask
    subst hnow
    have hclosed := closed_of_reports h hc now (.waited htask) hclaim hwatch
    -- The task is over by then, so there is nobody to listen to the reply.
    have hover : (c.step r.limits r.nextTask slot (.turn now task)).1.duty task = none := by
      simp only [Cell.step, Cell.turn, hduty, Cell.withBox_held hclaim]
      simp [Cell.notice, Cell.leave, Cell.dropTask]
    have hlast := (evolves (tidy_of_reachable hlater) (.reply now task (.telling learned))).cell slot _ hcell
    simp only [Cell.step, Cell.reply] at hlast hover
    rw [hover] at hlast
    rcases hclosed with ⟨b, hb, hclosed⟩
    obtain rfl := Option.some.inj ((cell?_eq_some.mp hcell).1.symm.trans hb)
    exact ⟨_, (cell?_eq_some.mp hlast).1, hclosed⟩

end Watched

/--
The end of a process that nobody asked for is classified. Whatever a task learns that watches a process, a wait status
or that there is none, closes the record of the box as soon as the task has hold of the box, and it always does so if
nobody works on the box. A wait status tells a code or a signal or neither, and two of them that do not tell the same
do not leave the same record on any two boxes. As long as the backend breaks off in launches only, a box with a process
that nobody works on has a task that watches the process.
-/
theorem ends_are_classified (h : Reachable limits (fun _ _ => True) r) {b : Box} (hb : r.boxes[slot]? = some b)
    : (∀ now task pid learned e, r.Reports slot now task pid (learned.map ofWaitStatus) e →
        (b.claim task).1 = true → b.watch = some task → (r.step e).1.Closed slot b.record now learned) ∧
      (b.holder = none → ∀ task pid, r.Watcher slot task pid → b.record.pid = some pid ∧
        ∀ now learned, (∀ result, r.task? task = some ⟨slot, .notice pid result⟩ → result = learned.map ofWaitStatus) →
          (r.after [.turn now task, .reply now task (.telling learned)]).Closed slot b.record now learned) ∧
      (b.holder = none → b.record.status.isActive = true → Reachable limits OnlyLaunchesBreakOff r →
        ∃ task pid, r.Watcher slot task pid) ∧
      ∀ w w', (ofWaitStatus w).Sensible ∧ ∀ before before' after after' : Record, ∀ now now',
        before.ClosedBy now (.ok w) after → before'.ClosedBy now' (.ok w') after' →
          after.status = after'.status → after.ending = after'.ending → ofWaitStatus w = ofWaitStatus w' := by
  rcases exists_cell? hb with ⟨c, hc, rfl⟩
  refine ⟨?_, ?_, ?_, ?_⟩
  . intro now task pid learned e hreports hclaim hwatch
    exact closed_of_reports h hc now hreports hclaim hwatch
  . intro hidle task pid hwatcher
    have hsound := sound_of_reachable h hc
    refine ⟨?_, fun now learned hnews => closed_of_watcher h hc hidle hwatcher hnews now⟩
    rcases (watcher_iff hc hsound).mp hwatcher with ⟨hwatch, d, hduty, hpid⟩
    rcases hsound.watch task d hwatch hduty with ⟨pid', hpid', hrecord⟩
    rwa [Option.some.inj (hpid.symm.trans hpid')]
  . intro hidle hactive hcalm
    rcases watcher_of_idle hc (sound_of_reachable h hc) (guarded_of_reachable hcalm hc) hidle hactive with
      ⟨pid, task, -, honly⟩
    exact ⟨task, pid, (honly task pid).mpr ⟨rfl, rfl⟩⟩
  . intro w w'
    exact ⟨ProcessEnd.sensible_ofWaitStatus w, fun _ _ _ _ _ _ hclosed hclosed' => hclosed.end_eq hclosed'⟩

theorem ends_are_classified_core_dump
    : let r := ({} : Registry).after launchAndWatch
      ∃ b b', r.boxes[0]? = some b ∧
        (r.after [.turn ⟨9, 0⟩ 1, .reply ⟨9, 0⟩ 1 (.telling (.ok 0x8B#32))]).boxes[0]? = some b' ∧
        b'.record = b.record.finish ⟨9, 0⟩ .failed (.crashed (some 11)) := by
  have hreachable : Reachable {} (fun _ _ => True) (({} : Registry).after launchAndWatch) :=
    Reachable.start.after fun _ _ _ => trivial
  have hclassified := @ends_are_classified _ _ 0 hreachable _ rfl
  have hwatcher : (({} : Registry).after launchAndWatch).Watcher 0 1 7 := ⟨_, rfl, rfl, .inl rfl⟩
  have hclosed := (hclassified.2.1 rfl 1 7 hwatcher).2 ⟨9, 0⟩ (.ok 0x8B#32) (by rintro result ⟨⟩)
  rcases hclosed with ⟨b', hb', hclosed⟩
  exact ⟨_, b', rfl, hb', hclosed.killed _ rfl rfl (by decide)⟩

end Registry

end BoxRegistry
