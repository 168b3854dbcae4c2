import BoxRegistry.Proofs.Simulation.Ownership

namespace BoxRegistry

theorem Stage.runs_of_suspends? {op : Operation} {b : Box} {stage : Stage} (h : stage.Fits op b) {pid : Pid}
    (hsuspends : (stage.suspends? pid).isSome = true)
    : b.Runs pid := by
  have hpid : ∀ {p value}, (if p = pid then some value else none : Option Bool).isSome = true → p = pid := by
    intro p value hsome
    split at hsome
    . assumption
    . cases hsome
  cases stage with
  | easing p grace =>
    rw [← hpid hsuspends]
    exact h.2.1
  | pausing p =>
    rw [← hpid hsuspends]
    exact h.2.2
  | resuming p =>
    rw [← hpid hsuspends]
    exact h.2.2
  | _ => cases hsuspends

def Registry.status? (r : Registry) (slot : Slot) : Option Status :=
  r.boxes[slot]?.map fun b => b.record.status

theorem Registry.status?_of_cell? {r : Registry} {slot : Slot} {c : Cell} (hc : r.cell? slot = some c)
    : r.status? slot = some c.box.record.status := by
  simp [status?, (cell?_eq_some.mp hc).1]

namespace Simulation

open Registry (evolves below_of_tidy tidy_of_reachable sound_of_reachable)

theorem Coupled.suspends?_eq {r : Registry} {b : Backend} {flights : List Flight} (h : Coupled r b flights)
    (htidy : r.Tidy) (hsound : ∀ slot c, r.cell? slot = some c → c.Sound) {slot : Slot} {c : Cell}
    (hc : r.cell? slot = some c) {pid : Pid} (hruns : c.box.Runs pid) (e : Registry.Event)
    : e.suspends? r pid = c.suspends? pid e := by
  cases e with
  | reply now t reply =>
    simp only [Registry.Event.suspends?, Cell.suspends?, ← (Registry.cell?_eq_some.mp hc).2, Registry.duty?]
    cases htask : r.task? t with
    | none => rfl
    | some task =>
      rcases task with ⟨slot', d⟩
      by_cases heq : slot' = slot
      . simp [heq]
      . simp only [Option.bind_some, heq, if_false, Option.bind_none]
        rcases Registry.exists_cell? (List.getElem?_eq_getElem (htidy.housed t _ htask)) with ⟨c', hc', -⟩
        have hduty : c'.duty t = some d := by
          rw [← (Registry.cell?_eq_some.mp hc').2, Registry.duty?_eq_some, htask]
        rw [Option.eq_none_iff_forall_ne_some]
        intro value hvalue
        cases d with
        | work op stage =>
          have hruns' := Stage.runs_of_suspends? ((hsound slot' c' hc').fits t op stage hduty)
            (Option.isSome_of_eq_some hvalue)
          exact heq (h.unique slot' slot c' c pid hc' hc hruns'.pid hruns.pid)
        | _ => cases hvalue
  | _ => rfl

namespace World

variable {w w' : World Backend Event} {limits : Limits} {slot : Slot} {c c' : Cell} {pid : Pid}

def FailsToStop (slot : Slot) (w w' : World Backend Event) : Prop :=
  ∃ t op stage message, w.service.registry.task? t = some ⟨slot, .work op stage⟩ ∧ op.stops = true ∧
    w' = w.runTask t ∧ w'.results = (t, .error (.stopFailed message)) :: w.results

/--
A box is recorded as paused since before a stop of it has failed.
-/
inductive Strained (limits : Limits) (slot : Slot) : World Backend Event → Prop where
  | fails {w w' : World Backend Event} (reachable : Reachable limits w) (fails : FailsToStop slot w w')
    (paused : w'.service.registry.status? slot = some .paused) : Strained limits slot w'
  | stays {w w' : World Backend Event} (strained : Strained limits slot w) (step : w.Step w')
    (paused : w'.service.registry.status? slot = some .paused) : Strained limits slot w'

theorem Strained.paused (h : Strained limits slot w) : w.service.registry.status? slot = some .paused := by
  cases h with
  | fails reachable fails paused => exact paused
  | stays strained step paused => exact paused

theorem FailsToStop.step (h : FailsToStop slot w w') : w.Step w' := by
  rcases h with ⟨t, op, stage, message, -, -, rfl, -⟩
  exact .turn t

theorem Strained.reachable (h : Strained limits slot w) : Reachable limits w := by
  induction h with
  | fails reachable fails paused => exact reachable.step fails.step
  | stays strained step paused ih => exact ih.step step

section Steps

inductive Keeps (w w' : World Backend Event) (slot : Slot) (c' : Cell) (pid : Pid) : Prop where
  | launched (running : c'.box.record.status = .running) (goesOn : w'.backend.isPaused pid = false)
  | kept {c : Cell} (cell : w.service.registry.cell? slot = some c) (runs : c.box.Runs pid)
    (alive : w.backend.isAlive pid = true)
    (swings : c.Swings c' (w.backend.isPaused pid) (w'.backend.isPaused pid) (FailsToStop slot w w'))

theorem keeps_of_same (hregistry : w'.service.registry = w.service.registry)
    (hc' : w'.service.registry.cell? slot = some c') (hruns : c'.box.Runs pid)
    (halive : w.backend.isAlive pid = true) (hpaused : w'.backend.isPaused pid = w.backend.isPaused pid)
    : Keeps w w' slot c' pid := by
  rw [hregistry] at hc'
  exact .kept hc' hruns halive (.stays rfl .rfl hpaused)

theorem untouched_of_quiet {r : Registry} (hr : Registry.Reachable limits Registry.OnlyLaunchesBreakOff r)
    {e : Registry.Event} (he : e.task? = none) (hc' : (r.step e).1.cell? slot = some c') (hruns : c'.box.Runs pid)
    : ∃ c, r.cell? slot = some c ∧ c.box.Untouched c'.box ∧
        ∀ t op stage, c'.duty t = some (.work op stage) ↔ c.duty t = some (.work op stage) := by
  have htidy := tidy_of_reachable hr
  rcases (evolves htidy e).before hc' with ⟨spec, rfl⟩ | ⟨c, hc, rfl⟩
  . cases hruns.active
  . have hhappens := (sound_of_reachable hr hc).happens (below_of_tidy htidy hc) r.limits slot e
    refine ⟨c, hc, ?_⟩
    generalize c.step r.limits r.nextTask slot e = out at hhappens
    generalize c.deeds r.limits e = deeds at hhappens
    cases hhappens with
    | aside untouched works wakes other => exact ⟨untouched, works⟩
    | posts duty => cases he
    | enters duty claimed eq orderly holder => cases he
    | proceeds duty => cases he
    | reports duty contends claimed eq orderly holder learns =>
      rcases learns with ⟨rfl, -⟩ | ⟨reply, rfl, -⟩ <;> cases he

theorem untouched_after {r : Registry} (hr : Registry.Reachable limits Registry.OnlyLaunchesBreakOff r)
    {es : List Registry.Event} (hes : ∀ e ∈ es, e.task? = none) (hc' : (r.after es).cell? slot = some c')
    (hruns : c'.box.Runs pid)
    : ∃ c, r.cell? slot = some c ∧ c.box.Untouched c'.box ∧
        ∀ t op stage, c'.duty t = some (.work op stage) ↔ c.duty t = some (.work op stage) := by
  induction es generalizing r with
  | nil => exact ⟨c', hc', .refl _, fun _ _ _ => .rfl⟩
  | cons e es ih =>
    have he := hes e List.mem_cons_self
    rcases ih (hr.step (allowed_of_quiet he)) (fun e he => hes e (List.mem_cons_of_mem _ he)) hc'
      with ⟨c₁, hc₁, huntouched₁, hworks₁⟩
    have hruns₁ : c₁.box.Runs pid := hruns.congr huntouched₁.record.symm huntouched₁.removed.symm
    rcases untouched_of_quiet hr he hc₁ hruns₁ with ⟨c, hc, huntouched, hworks⟩
    refine ⟨c, hc, ?_, fun t op stage => (hworks₁ t op stage).trans (hworks t op stage)⟩
    exact ⟨huntouched₁.spec.trans huntouched.spec, huntouched₁.record.trans huntouched.record,
      huntouched₁.removed.trans huntouched.removed, huntouched₁.watch.trans huntouched.watch⟩

theorem Asks.keeps (h : w.Sane limits) (hasks : Asks w w') (hc' : w'.service.registry.cell? slot = some c')
    (hruns : c'.box.Runs pid) (halive : w'.backend.isAlive pid = true)
    : Keeps w w' slot c' pid := by
  rcases hasks.events with ⟨es, hregistry, hes⟩
  rw [hregistry] at hc'
  rcases untouched_after h.reachable (fun e he => (hes e he).1) hc' hruns with ⟨c, hc, huntouched, hworks⟩
  rw [hasks.backend.isAlive] at halive
  refine .kept hc (hruns.congr huntouched.record.symm huntouched.removed.symm) halive ?_
  exact .stays (congrArg Record.status huntouched.record) (Cell.pressed_congr hworks) (hasks.backend.isPaused pid)

theorem Acts.goesOn_of_launches (h : w.Sane limits) {e : Registry.Event} (hacts : Acts w w' e)
    (hc : w.service.registry.cell? slot = some c) (hlaunches : c.Launches pid e)
    (halive : w'.backend.isAlive pid = true)
    : w'.backend.isPaused pid = false := by
  rw [hacts.backs.suspended pid halive, (hacts.backs.launched slot c pid hc hlaunches).1]
  rcases hlaunches with ⟨now, t, op, rfl, hduty⟩
  simp [Registry.Event.suspends?, Registry.task?_of_duty hc hduty, Duty.suspends?, Stage.suspends?,
    Backend.isPaused_nextPid h.coupled.tidy]

theorem Acts.failsToStop (h : w.Sane limits) {e : Registry.Event} {t : TaskId} (ht : e.task? = some t)
    (hacts : Acts w (w.runTask t) e) (hc : w.service.registry.cell? slot = some c)
    (hfails : c.FailsToStop e (c.step w.service.registry.limits w.service.registry.nextTask slot e).2)
    : FailsToStop slot w (w.runTask t) := by
  rcases hfails with ⟨t', op, stage, message, ht', hduty, hstops, hresults⟩
  rw [ht] at ht'
  obtain rfl := Option.some.inj ht'
  have htask := Registry.task?_of_duty hc hduty
  have hchanges := Registry.changes_step (tidy_of_reachable h.reachable) hc (Registry.slot?_of_task? ht htask)
  refine ⟨t, op, stage, message, htask, hstops, rfl, ?_⟩
  rw [hacts.results, hchanges.2, hresults]
  rfl

theorem Acts.keeps (h : w.Sane limits) {e : Registry.Event} {t : TaskId} (ht : e.task? = some t)
    (hacts : Acts w (w.runTask t) e) (hc' : (w.runTask t).service.registry.cell? slot = some c')
    (hruns : c'.box.Runs pid) (halive : (w.runTask t).backend.isAlive pid = true)
    : Keeps w (w.runTask t) slot c' pid := by
  have htidy := tidy_of_reachable h.reachable
  have hbacks := hacts.backs
  replace hc' : (w.service.registry.step e).1.cell? slot = some c' := by
    rw [hacts.service] at hc'
    exact hc'
  rcases (evolves htidy e).before hc' with ⟨spec, rfl⟩ | ⟨c, hc, rfl⟩
  . cases hruns.active
  . have hsound := sound_of_reachable h.reachable hc
    have hbelow := below_of_tidy htidy hc
    have hsuspends : c.box.Runs pid → e.suspends? w.service.registry pid = c.suspends? pid e := fun hruns =>
      h.coupled.suspends?_eq htidy (fun slot c hc => sound_of_reachable h.reachable hc) hc hruns e
    have hwhole : ∀ now t op stage message, e = .reply now t (.panicked message) →
        c.duty t = some (.work op stage) → stage = .launching := by
      rintro now t op stage message rfl hduty
      rcases hacts.allowed with ⟨slot', op', htask⟩
      rw [Registry.task?_of_duty hc hduty] at htask
      cases htask
      rfl
    have hobeyed : c.box.Runs pid → ∀ now t reply, e = .reply now t reply → (c.suspends? pid e).isSome = true →
        reply = .done := by
      intro hruns now t reply heq hsome
      rw [← hsuspends hruns] at hsome
      exact hbacks.obeyed now t reply pid heq hsome halive
    rcases hsound.swings hbelow w.service.registry.limits slot hwhole hobeyed hruns (w.backend.isPaused pid)
      with hlaunches | ⟨hold, hswings⟩
    . exact .launched (hsound.running_of_launches hlaunches _ _ _) (hacts.goesOn_of_launches h hc hlaunches halive)
    . rw [← hsuspends hold, ← hbacks.suspended pid halive] at hswings
      refine .kept hc hold ?_ (hswings.imp fun hfails => hacts.failsToStop h ht hc hfails)
      cases hbefore : w.backend.isAlive pid with
      | true => rfl
      | false =>
        rw [hbacks.dead (h.coupled.known slot c pid hc hold.pid) hbefore] at halive
        cases halive

theorem keeps_step (h : w.Sane limits) (hstep : w.Step w') (hc' : w'.service.registry.cell? slot = some c')
    (hruns : c'.box.Runs pid) (halive : w'.backend.isAlive pid = true)
    : Keeps w w' slot c' pid := by
  cases hstep with
  | begin id wish => exact (asks_beginWish h id wish).keeps h hc' hruns halive
  | look id waiting open' => exact (asks_advance h id open').keeps h hc' hruns halive
  | giveUp id => exact keeps_of_same (abandon_registry w.service id) hc' hruns halive rfl
  | turn task =>
    rcases runTask_cases h task with ⟨e, ht, hacts⟩ | hwaits
    . exact hacts.keeps h ht hc' hruns halive
    . rw [hwaits.backend] at halive
      exact keeps_of_same (congrArg Service.registry hwaits.service) hc' hruns halive
        (congrArg (fun b : Backend => b.isPaused pid) hwaits.backend)
  | happen event =>
    exact keeps_of_same rfl hc' hruns (Backend.isAlive_happen h.coupled.tidy halive) (Backend.isPaused_happen halive)
  | setUp launchFault launchDelay launchPanics ignoresRequests refusesKill =>
    exact keeps_of_same rfl hc' hruns halive rfl
  | arrange service backend flights clock =>
    rw [backend] at halive
    exact keeps_of_same (congrArg Service.registry service) hc' hruns halive
      (congrArg (fun b : Backend => b.isPaused pid) backend)

end Steps

section Invariant

theorem not_cell?_start (limits : Limits) (plain : Bool) (slot : Slot)
    : (start limits plain).service.registry.cell? slot = none := by
  simp [start, Registry.cell?]

theorem goesOn_of_reachable (h : Reachable limits w) (hc : w.service.registry.cell? slot = some c)
    (hruns : c.box.Runs pid) (halive : w.backend.isAlive pid = true)
    (hgoes : c.box.record.status ≠ .paused ∨ c.Pressed)
    : w.backend.isPaused pid = false := by
  induction h generalizing c with
  | start plain =>
    rw [not_cell?_start] at hc
    cases hc
  | @step w w' hreachable hstep ih =>
    cases keeps_step (sane_of_reachable hreachable) hstep hc hruns halive with
    | launched running goesOn => exact goesOn
    | kept cell runs alive swings =>
      have hold := ih cell runs alive
      cases swings with
      | stays status pressed same =>
        rw [status, pressed] at hgoes
        rw [same, hold hgoes]
      | presses status unpaused pressed same => rw [same, hold (.inl unpaused)]
      | eases status pressed goesOn => exact goesOn
      | suspends running paused free free' suspended =>
        rcases hgoes with hunpaused | hpressed
        . exact absurd paused hunpaused
        . exact absurd hpressed free'
      | resumes running goesOn => exact goesOn
      | fails fails status pressed free same => rw [same, hold (.inr pressed)]

theorem FailsToStop.pressed (h : FailsToStop slot w w') (hsane : w.Sane limits)
    (hc : w.service.registry.cell? slot = some c)
    : c.Pressed := by
  rcases h with ⟨t, op, stage, message, htask, hstops, rfl, hresults⟩
  have htidy := tidy_of_reachable hsane.reachable
  have hduty : c.duty t = some (.work op stage) := by
    rw [← (Registry.cell?_eq_some.mp hc).2, Registry.duty?_eq_some, htask]
  rcases runTask_cases hsane t with ⟨e, ht, hacts⟩ | hwaits
  . have hslot := Registry.slot?_of_task? ht htask
    rw [hacts.results, (Registry.changes_step htidy hc hslot).2] at hresults
    apply (sound_of_reachable hsane.reachable hc).pressed_of_fails (below_of_tidy htidy hc) w.service.registry.limits
      slot (e := e)
    refine ⟨t, op, stage, message, ht, hduty, hstops, ?_⟩
    have hone := List.append_cancel_right (hresults.trans (List.singleton_append).symm)
    simpa using congrArg List.reverse hone
  . rw [hwaits.results] at hresults
    simp at hresults

theorem Strained.goesOn (h : Strained limits slot w) (hc : w.service.registry.cell? slot = some c)
    (hruns : c.box.Runs pid) (halive : w.backend.isAlive pid = true)
    : w.backend.isPaused pid = false := by
  induction h generalizing c with
  | @fails w w' reachable fails paused =>
    have hsane := sane_of_reachable reachable
    cases keeps_step hsane fails.step hc hruns halive with
    | launched running goesOn => exact goesOn
    | kept cell runs alive swings =>
      have hpressed := fails.pressed hsane cell
      rw [goesOn_of_reachable reachable cell runs alive (.inr hpressed)] at swings
      exact swings.goesOn (.inl hpressed)
  | @stays w w' strained step paused ih =>
    cases keeps_step (sane_of_reachable strained.reachable) step hc hruns halive with
    | launched running goesOn => exact goesOn
    | kept cell runs alive swings =>
      rw [ih cell runs alive] at swings
      apply swings.goesOn
      have hpaused := strained.paused
      rw [Registry.status?_of_cell? cell] at hpaused
      exact .inr (by simp [Option.some.inj hpaused])

theorem suspended_of_reachable (h : Reachable limits w) (hc : w.service.registry.cell? slot = some c)
    (hruns : c.box.Runs pid) (halive : w.backend.isAlive pid = true) (hpaused : c.box.record.status = .paused)
    (hfree : ¬c.Pressed) (heased : ¬Strained limits slot w)
    : w.backend.isPaused pid = true := by
  induction h generalizing c with
  | start plain =>
    rw [not_cell?_start] at hc
    cases hc
  | @step w w' hreachable hstep ih =>
    have hstatus : w'.service.registry.status? slot = some .paused := by
      rw [Registry.status?_of_cell? hc, hpaused]
    cases keeps_step (sane_of_reachable hreachable) hstep hc hruns halive with
    | launched running goesOn =>
      rw [hpaused] at running
      cases running
    | kept cell runs alive swings =>
      cases swings with
      | stays status pressed same =>
        rw [same]
        apply ih cell runs alive (status ▸ hpaused) (fun hpressed => hfree (pressed.mpr hpressed))
        exact fun hstrained => heased (hstrained.stays hstep hstatus)
      | presses status unpaused pressed same => exact absurd pressed hfree
      | eases status pressed goesOn => exact absurd pressed hfree
      | suspends running paused free free' suspended => exact suspended
      | resumes running goesOn =>
        rw [hpaused] at running
        cases running
      | fails fails status pressed free same => exact absurd (.fails hreachable fails hstatus) heased

end Invariant

/--
In a world at rest a process that is alive is suspended exactly if its box is recorded as paused and no stop of the
box has failed since.
-/
theorem pause_is_mirrored (h : Reachable limits w) (hrest : w.AtRest) {b : Box}
    (hb : w.service.registry.boxes[slot]? = some b) (hactive : b.record.status.isActive = true)
    (hpid : b.record.pid = some pid) (halive : w.backend.isAlive pid = true)
    : w.backend.isPaused pid = true ↔ b.record.status = .paused ∧ ¬Strained limits slot w := by
  rcases Registry.exists_cell? hb with ⟨c, hc, rfl⟩
  have hsane := sane_of_reachable h
  have hruns := (sound_of_reachable hsane.reachable hc).coherent.runs hactive hpid
  have hfree : ¬c.Pressed := by
    rintro ⟨t, op, stage, hduty, -⟩
    rcases hrest.idle t _ (Registry.task?_of_duty hc hduty) with ⟨pid', hwatch⟩
    cases hwatch
  constructor
  . intro hpaused
    refine ⟨?_, ?_⟩
    . by_contra hunpaused
      rw [goesOn_of_reachable h hc hruns halive (.inl hunpaused)] at hpaused
      cases hpaused
    . intro hstrained
      rw [hstrained.goesOn hc hruns halive] at hpaused
      cases hpaused
  . rintro ⟨hpaused, heased⟩
    exact suspended_of_reachable h hc hruns halive hpaused hfree heased

section RefusedKill

def watched : World Backend Event :=
  let w := ((start {} false).beginWish 0 (.create { image := "alpine" } none)).1
  let w := (w.beginWish 0 (.operate (.ofBox 0 .full) .start)).1
  ((w.runTask 0).runTask 0).runTask 1

theorem reachable_watched : Reachable {} watched := by
  have hstart : Reachable {} (start {} false) := .start false
  have hcreated := hstart.step (.begin 0 (.create { image := "alpine" } none))
  have hbegun := hcreated.step (.begin 0 (.operate (.ofBox 0 .full) .start))
  exact ((hbegun.step (.turn 0)).step (.turn 0)).step (.turn 1)

def suspended : World Backend Event :=
  let w := (watched.beginWish 0 (.operate (.ofBox 0 .full) .pause)).1
  (w.runTask 2).runTask 2

/--
A box that is paused is to be removed by force, and its process cannot be killed.
-/
def unremovable : World Backend Event :=
  let w := { suspended with backend := { suspended.backend with refusesKill := true } }
  let w := (w.beginWish 0 (.operate (.ofBox 0 .full) (.remove true))).1
  (((w.runTask 3).runTask 3).runTask 3).runTask 4

theorem reachable_unremovable : Reachable {} unremovable := by
  have hbegun := reachable_watched.step (.begin 0 (.operate (.ofBox 0 .full) .pause))
  have hsuspended : Reachable {} suspended := (hbegun.step (.turn 2)).step (.turn 2)
  have hrefuses := hsuspended.step (.setUp none 0 false false true)
  have hremoved := hrefuses.step (.begin 0 (.operate (.ofBox 0 .full) (.remove true)))
  exact (((hremoved.step (.turn 3)).step (.turn 3)).step (.turn 3)).step (.turn 4)

theorem atRest_unremovable : unremovable.AtRest :=
  atRest_of_watches [(4, 0, 10000)] [10000] rfl rfl

theorem pause_is_mirrored_unremovable
    : unremovable.service.registry.status? 0 = some .paused ∧ unremovable.service.registry.pid? 0 = some 10000 ∧
      unremovable.backend.isAlive 10000 = true ∧ unremovable.backend.isPaused 10000 = false ∧
      Strained {} 0 unremovable := by
  have hmirrored := pause_is_mirrored reachable_unremovable atRest_unremovable
    (show unremovable.service.registry.boxes[0]? = some _ from rfl) rfl rfl
    (show unremovable.backend.isAlive 10000 = true from rfl)
  refine ⟨rfl, rfl, rfl, rfl, ?_⟩
  by_contra heased
  have hpaused : unremovable.backend.isPaused 10000 = true := hmirrored.mpr ⟨rfl, heased⟩
  cases hpaused

end RefusedKill

end World

end Simulation

end BoxRegistry
