import BoxRegistry.Proofs.Registry.StartOutcome
import BoxRegistry.Proofs.Registry.Withdrawal

/-!
This module contains what is left of an operation when the backend breaks off under it. The caller is given a fault, the
box is free for the next one in line and no other box is affected. A box whose launch breaks off has failed, and any
other keeps its process. The process is still watched, unless the operation was to stop the box: a stop calls the watch
off and sets a new one only if the backend would not kill the process, so one that breaks off leaves nobody to watch.
-/

namespace BoxRegistry

open Time (Moment)

namespace Cell

variable {c : Cell} {task : TaskId} {op : Operation} {stage : Stage}

theorem Guarded.watch_of_work (h : c.Guarded) (hsound : c.Sound) (hduty : c.duty task = some (.work op stage))
    (hstage : stage.stops = false) (hactive : c.box.record.status.isActive = true)
    : c.box.watch ≠ none := by
  intro hnone
  rcases h.unwatched hactive hnone with ⟨t, op', stage', hholder, hduty', hstops⟩
  rw [hsound.worker task op stage hduty] at hholder
  obtain rfl := Option.some.inj hholder
  rw [hduty] at hduty'
  cases hduty'
  rw [hstage] at hstops
  cases hstops

theorem Guarded.breakOff (h : c.Guarded) (hsound : c.Sound) (hduty : c.duty task = some (.work op stage))
    (hstage : stage.stops = false) (limits : Limits) (fresh : TaskId) (message : String)
    : (c.apply limits fresh task op (c.box.crash message)).1.Guarded := by
  apply Guarded.leave h.stands (h.watch_of_work hsound hduty hstage)
  intro hwatch
  rcases hsound.watch task _ hwatch hduty with ⟨pid, hpid, -⟩
  cases hpid

end Cell

namespace Registry

variable {limits : Limits} {allowed : Registry → Event → Prop} {r : Registry} {slot : Slot} {task : TaskId}
  {c : Cell} {b : Box} {op : Operation} {stage : Stage}

def Undisturbed (slot : Slot) (r : Registry) : Event → Prop
  | .reply _ task (.panicked _) => ∀ d, r.task? task = some ⟨slot, d⟩ →
    (∀ pid, d ≠ .watch pid) ∧ ∀ op stage, d = .work op stage → stage.stops = false
  | _ => True

section Guard

theorem guarded_step (hc : r.cell? slot = some c) (h : c.Guarded) (hsound : c.Sound) (hbelow : c.Below r.nextTask)
    {e : Event} (he : Undisturbed slot r e)
    : (c.step r.limits r.nextTask slot e).1.Guarded := by
  by_cases hcalm : ∀ now task message d, e = .reply now task (.panicked message) → c.duty task = some d →
      ∃ op, d = .work op .launching
  . exact h.step hsound hbelow r.limits slot hcalm
  . simp only [not_forall] at hcalm
    rcases hcalm with ⟨now, t, message, d, rfl, hduty, hlaunch⟩
    rcases he d (task?_of_duty hc hduty) with ⟨hwatch, hstops⟩
    cases d with
    | work op stage =>
      have hbreaks : op.proceed r.limits now c.box stage (.panicked message) = c.box.crash message := by
        cases stage <;> first | rfl | exact absurd ⟨op, rfl⟩ hlaunch
      rw [Cell.step_reply_work hduty, hbreaks]
      exact h.breakOff hsound hduty (hstops op stage rfl) _ _ message
    | watch pid => exact absurd rfl (hwatch pid)
    | _ => simpa only [Cell.step, Cell.reply, hduty] using h

theorem guarded_of_undisturbed (h : Reachable limits (Undisturbed slot) r) (hc : r.cell? slot = some c)
    : c.Guarded := by
  induction h generalizing c with
  | start => cases hc
  | @step r e hr he ih =>
    have htidy := tidy_of_reachable hr
    rcases (evolves htidy e).before hc with ⟨spec, rfl⟩ | ⟨c₀, hc₀, rfl⟩
    . exact Cell.guarded_new spec
    . exact guarded_step hc₀ (ih hc₀) (sound_of_reachable hr hc₀) (below_of_tidy htidy hc₀) he

end Guard

/--
A box with a process is kept track of: there is one task that watches the process, and as soon as it knows the end and
has hold of the box, the end is on record.
-/
structure Kept (r : Registry) (slot : Slot) (b : Box) : Prop where
  watched : ∃ pid w, b.record.pid = some pid ∧ ∀ t p, r.Watcher slot t p ↔ t = w ∧ p = pid
  recorded : ∀ now task pid result e, r.Reports slot now task pid result e → (b.claim task).1 = true →
    r.Watcher slot task pid → r.Records slot b now pid result e

theorem kept_of_guarded (h : Reachable limits allowed r) (hc : r.cell? slot = some c) (hguarded : c.Guarded)
    (hwatch : c.box.watch ≠ none)
    : r.Kept slot c.box := by
  have hsound := sound_of_reachable h hc
  rcases Option.ne_none_iff_exists'.mp hwatch with ⟨w, hw⟩
  rcases hguarded.stands w hw with ⟨d, hd⟩
  rcases hsound.watch w d hw hd with ⟨pid, hpid, hrecord⟩
  refine ⟨⟨pid, w, hrecord, watcher_of_duty hc hsound hw hd hpid⟩, ?_⟩
  intro now task pid result e hreports hclaim hwatcher
  exact records_of_reports (tidy_of_reachable h) hc hsound hreports hclaim ((watcher_iff hc hsound).mp hwatcher).1

theorem kept_of_undisturbed (h : Reachable limits (Undisturbed slot) r) (hb : r.boxes[slot]? = some b)
    (hidle : b.holder = none) (hactive : b.record.status.isActive = true)
    : r.Kept slot b := by
  rcases exists_cell? hb with ⟨c, hc, rfl⟩
  have hguarded := guarded_of_undisturbed h hc
  apply kept_of_guarded h hc hguarded
  intro hnone
  rcases hguarded.unwatched hactive hnone with ⟨t, op, stage, hholder, -⟩
  rw [hidle] at hholder
  cases hholder

section BreakOff

variable (h : Reachable limits (fun _ _ => True) r) (hc : r.cell? slot = some c)
  (hduty : c.duty task = some (.work op stage)) (now : Moment) (message : String)
include h hc hduty

theorem withdraws_of_breakOff (hstage : stage ≠ .launching)
    : r.Withdraws slot task (.brokenOff task message) (.reply now task (.panicked message)) := by
  apply withdraws_of_move h hc hduty
  refine .inr ⟨message, ?_, rfl⟩
  cases stage <;> first | rfl | exact absurd rfl hstage

theorem frees_of_breakOff : r.Frees slot (.reply now task (.panicked message)) := by
  by_cases hstage : stage = .launching
  . subst hstage
    rcases (sound_of_reachable h hc).fits task op _ hduty with ⟨rfl, hcreated, -⟩
    rcases c.box.record.markStartFailed_of_created now hcreated "isolation backend panicked during launch" with
      ⟨record, hmarked, -⟩
    have hslot : (Event.reply now task (.panicked message)).slot? r = some slot :=
      slot?_of_duty rfl hc hduty
    have hmove : Operation.start.proceed r.limits now c.box .launching (.panicked message) =
        { box := { c.box with record }, deeds := [.count (.ended .failed false)],
          next := .finish (.error (.startFailed "isolation backend panicked during launch")) } := by
      simp only [Operation.proceed, Reply.launch, Box.failStart, hmarked]
    have hstep : c.step r.limits r.nextTask slot (.reply now task (.panicked message)) =
        ((({ c with box := { c.box with record } } : Cell).leave task).1,
          (({ c with box := { c.box with record } } : Cell).leave task).2 ++
            [.settled task (.error (.startFailed "isolation backend panicked during launch"))]) := by
      rw [Cell.step_reply_work hduty, hmove]
      rfl
    have hdeeds : .unlist ∉ c.deeds r.limits (.reply now task (.panicked message)) := by
      simp [Cell.deeds, hduty, hmove]
    exact frees_of_leave (tidy_of_reachable h) hc hslot hdeeds hstep rfl rfl rfl
  . exact (withdraws_of_breakOff h hc hduty now message hstage).frees

theorem unwatched_of_breakOff (hstops : stage.stops = true) (t : TaskId) (pid : Pid)
    : ¬(r.step (.reply now task (.panicked message))).1.Watcher slot t pid := by
  have hsound := sound_of_reachable h hc
  have hstage : stage ≠ .launching := by
    rintro rfl
    cases hstops
  have hnone : c.box.watch = none := by
    have hfits := hsound.fits task op stage hduty
    cases stage with
    | launching => cases hstops
    | pausing p => cases hstops
    | resuming p => cases hstops
    | _ => exact hfits.2.2
  rw [(withdraws_of_breakOff h hc hduty now message hstage).watchers, watcher_iff hc hsound, hnone]
  rintro ⟨hwatch, -⟩
  cases hwatch

theorem kept_of_breakOff (hcalm : Reachable limits (Undisturbed slot) r) (hstage : stage ≠ .launching)
    (hkept : stage.stops = false) {b' : Box}
    (hb' : (r.step (.reply now task (.panicked message))).1.boxes[slot]? = some b')
    : (r.step (.reply now task (.panicked message))).1.Kept slot b' := by
  have hsound := sound_of_reachable h hc
  have hguarded := guarded_of_undisturbed hcalm hc
  have hactive : c.box.record.status.isActive = true := by
    have hfits := hsound.fits task op stage hduty
    cases stage with
    | launching => exact absurd rfl hstage
    | pausing p => exact hfits.2.2.active
    | resuming p => exact hfits.2.2.active
    | _ => cases hkept
  have hallowed : Undisturbed slot r (.reply now task (.panicked message)) := by
    intro d hd
    rw [duty_of_task? hc hd] at hduty
    cases hduty
    refine ⟨by simp, ?_⟩
    rintro op' stage' heq
    cases heq
    exact hkept
  have hlater := hcalm.step hallowed
  rcases exists_cell? hb' with ⟨c', hc', rfl⟩
  apply kept_of_guarded hlater hc' (guarded_of_undisturbed hlater hc')
  have hbox := (withdraws_of_breakOff h hc hduty now message hstage).box
  rw [(cell?_eq_some.mp hc').1, (cell?_eq_some.mp hc).1] at hbox
  rw [Option.some.inj hbox]
  exact hguarded.watch_of_work hsound hduty hkept hactive

end BreakOff

/--
What an operation leaves behind under which the backend breaks off at a stage.
-/
structure Contained (limits : Limits) (r : Registry) (slot : Slot) (b : Box) (task : TaskId) (stage : Stage)
    (message : String) (e : Event) : Prop where
  frees : r.Frees slot e
  launch : stage = .launching → r.FailsToStart slot b task "isolation backend panicked during launch" e
  other : stage ≠ .launching → r.Withdraws slot task (.brokenOff task message) e ∧ ∃ pid, b.Runs pid
  stranded : stage.stops = true → ∀ t pid, ¬(r.step e).1.Watcher slot t pid
  kept : stage ≠ .launching → stage.stops = false → Reachable limits (Undisturbed slot) r →
    ∀ b', (r.step e).1.boxes[slot]? = some b' → (r.step e).1.Kept slot b'

/--
When the backend breaks off under an operation, at whatever stage, the caller is given a fault, the next in line has the
box and no other box is affected. If it was a launch then the box has failed. Otherwise the box has its process and its
record as before, and the process is kept track of unless the operation was to stop the box. As long as neither a watch
nor a stop of a box breaks off, the process of the box is kept track of whenever nobody works on the box.
-/
theorem break_off_is_contained (h : Reachable limits (fun _ _ => True) r)
    (htask : r.task? task = some ⟨slot, .work op stage⟩) (hb : r.boxes[slot]? = some b) (now : Moment)
    (message : String)
    : Contained limits r slot b task stage message (.reply now task (.panicked message)) ∧
      ∀ r', Reachable limits (Undisturbed slot) r' → ∀ b', r'.boxes[slot]? = some b' → b'.holder = none →
        b'.record.status.isActive = true → r'.Kept slot b' := by
  rcases exists_cell? hb with ⟨c, hc, rfl⟩
  have hduty := duty_of_task? hc htask
  refine ⟨⟨frees_of_breakOff h hc hduty now message, ?_, ?_, unwatched_of_breakOff h hc hduty now message, ?_⟩, ?_⟩
  . rintro rfl
    rcases (sound_of_reachable h hc).fits task op _ hduty with ⟨rfl, -⟩
    exact failsToStart_of_error h hc hduty rfl now
  . intro hstage
    refine ⟨withdraws_of_breakOff h hc hduty now message hstage, ?_⟩
    have hfits := (sound_of_reachable h hc).fits task op stage hduty
    cases stage with
    | launching => exact absurd rfl hstage
    | pausing pid => exact ⟨pid, hfits.2.2⟩
    | resuming pid => exact ⟨pid, hfits.2.2⟩
    | easing pid grace => exact ⟨pid, hfits.2.1⟩
    | asking pid grace => exact ⟨pid, hfits.2.1⟩
    | parting pid => exact ⟨pid, hfits.2.1⟩
    | killing pid => exact ⟨pid, hfits.2.1⟩
    | confirming pid => exact ⟨pid, hfits.2.1⟩
  . intro hstage hkept hcalm b' hb'
    exact kept_of_breakOff h hc hduty now message hcalm hstage hkept hb'
  . intro r' hr' b' hb' hidle hactive
    exact kept_of_undisturbed hr' hb' hidle hactive

def stopAndWait : List Event :=
  launchAndWatch ++ [.begin 0 (.stop ⟨5000000000⟩), .turn ⟨1, 0⟩ 2, .begin 0 .pause, .turn ⟨1, 0⟩ 3]

theorem break_off_is_contained_stopAndWait
    : let r := ({} : Registry).after stopAndWait
      let stopped := (r.step (.reply ⟨2, 0⟩ 2 (.panicked "boom"))).1
      let r' := ({} : Registry).after (launchAndWatch ++ [.begin 0 .pause, .turn ⟨1, 0⟩ 2])
      let paused := (r'.step (.reply ⟨2, 0⟩ 2 (.panicked "boom"))).1
      (∃ b, stopped.boxes[0]? = some b ∧ b.record.status = .running ∧ (b.claim 3).1 = true ∧
          ∀ t pid, ¬stopped.Watcher 0 t pid) ∧
        ∃ b, paused.boxes[0]? = some b ∧ b.record.status = .running ∧ paused.Kept 0 b := by
  intro r stopped r' paused
  have hreachable : Reachable {} (fun _ _ => True) r := Reachable.start.after fun _ _ _ => trivial
  have hreachable' : Reachable {} (fun _ _ => True) r' := Reachable.start.after fun _ _ _ => trivial
  have hcalm : Reachable {} (Undisturbed 0) r' := by
    apply Reachable.after .start
    simp [launchAndWatch, Undisturbed]
  have hasking : r.task? 2 = some ⟨0, .work (.stop ⟨5000000000⟩) (.asking 7 ⟨5000000000⟩)⟩ := rfl
  have hpausing : r'.task? 2 = some ⟨0, .work .pause (.pausing 7)⟩ := rfl
  have hstop := (break_off_is_contained hreachable hasking rfl ⟨2, 0⟩ "boom").1
  have hpause := (break_off_is_contained hreachable' hpausing rfl ⟨2, 0⟩ "boom").1
  refine ⟨?_, _, rfl, rfl, hpause.kept (by simp) rfl hcalm _ rfl⟩
  rcases hstop.frees.line _ rfl with ⟨b, hb, -, -, -, hclaim⟩
  obtain rfl := Option.some.inj (hb.symm.trans rfl)
  exact ⟨_, rfl, rfl, hclaim 3 (.inr rfl), hstop.stranded rfl⟩

end Registry

end BoxRegistry
