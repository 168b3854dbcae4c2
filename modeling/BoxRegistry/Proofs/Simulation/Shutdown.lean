import BoxRegistry.Proofs.Registry.Gauge
import BoxRegistry.Proofs.Registry.Stops
import BoxRegistry.Proofs.Simulation.Ownership

/-!
This module contains what a shutdown leaves behind if no kill is refused: the boxes that were being started when
the active ones were collected, and nothing else. A start that is in flight at that moment is not waited for,
so its box may come to life after the shutdown is over.
-/

namespace BoxRegistry

def Teardown.pending : Teardown → List TaskId
  | stopping _ pending => pending
  | idle | closing _ | done => []

theorem Teardown.pending_settle {teardown : Teardown} {effects : List Effect} {t : TaskId}
    (h : t ∈ teardown.pending) (hopen : ∀ result, .settled t result ∉ effects)
    : t ∈ (teardown.settle effects).pending := by
  cases teardown with
  | stopping leader pending =>
    simp only [settle, Teardown.pending, List.mem_filter, Bool.not_eq_true']
    refine ⟨h, ?_⟩
    rw [List.any_eq_false]
    intro effect heffect
    cases effect with
    | settled settled result =>
      simp only [decide_eq_true_eq]
      rintro rfl
      exact hopen result heffect
    | _ => simp
  | idle => cases h
  | closing leader => cases h
  | done => cases h

theorem Teardown.settle_idle_iff {teardown : Teardown} {effects : List Effect}
    : teardown.settle effects = .idle ↔ teardown = .idle := by
  cases teardown <;> simp [settle]

namespace Registry

def Starting (r : Registry) (slot : Slot) : Prop :=
  ∃ t d, r.task? t = some ⟨slot, d⟩ ∧ d.op? = some .start

end Registry

namespace Simulation

open Registry (OnlyLaunchesBreakOff evolves)

/--
What is true of a registry after a shutdown has collected the active boxes in another: starts that are in
flight were so then, and a box has its process from such a start, or the process is over, or the box
is being stopped by one of some tasks.
-/
structure Winds (r₀ : Registry) (first : Pid) (r : Registry) (b : Backend) (pending : List TaskId) : Prop where
  starting : ∀ slot c t d, r.cell? slot = some c → c.duty t = some d → d.op? = some .start → r₀.Starting slot
  stopping : ∀ slot c pid, r.cell? slot = some c → c.box.Runs pid →
    (r₀.Starting slot ∧ first ≤ pid) ∨ b.isAlive pid = false ∨
      ∃ t ∈ pending, ∃ d grace, c.duty t = some d ∧ d.op? = some (.stop grace)

namespace Winds

variable {r₀ r : Registry} {first : Pid} {b b' : Backend} {pending pending' : List TaskId} {flights : List Flight}
  {e : Registry.Event}

theorem weaken (h : Winds r₀ first r b pending) (halive : ∀ pid, b'.isAlive pid = true → b.isAlive pid = true)
    (hpending : ∀ t ∈ pending, t ∈ pending')
    : Winds r₀ first r b' pending' where
  starting := h.starting
  stopping slot c pid hc hruns := by
    rcases h.stopping slot c pid hc hruns with hstarting | hdead | ⟨t, ht, hstops⟩
    . exact .inl hstarting
    . refine .inr (.inl (eq_false_of_ne_true ?_))
      intro halive'
      rw [halive pid halive'] at hdead
      cases hdead
    . exact .inr (.inr ⟨t, hpending t ht, hstops⟩)

theorem dead_of_quits (hcoupled : Coupled r b flights) (hbacks : Backs r e b b')
    (hallowed : b.refusesKill = false) {slot : Slot} {c : Cell} (hc : r.cell? slot = some c) {t : TaskId}
    {pid : Pid} (hquits : c.Quits t pid e)
    : b'.isAlive pid = false := by
  cases hquits with
  | @parted now op how duty => exact hbacks.parted slot c now t op pid how hc rfl duty
  | @killed now op reply duty => exact hbacks.killed slot c now t op pid reply hc rfl duty hallowed
  | @confirmed now op reply duty =>
    have hover := hcoupled.past slot c t _ pid hc duty rfl
    exact hbacks.dead hover.1 hover.2

theorem whole_of_allowed {slot : Slot} {c : Cell} (hc : r.cell? slot = some c) (hsound : c.Sound)
    (hallowed : OnlyLaunchesBreakOff r e) {t : TaskId} {d : Duty} (hd : c.duty t = some d) {grace : Time.Span}
    (hop : d.op? = some (.stop grace)) (now : Time.Moment) (message : String)
    : e ≠ .reply now t (.panicked message) := by
  rintro rfl
  rcases hallowed with ⟨slot', op, htask⟩
  rw [Registry.task?_of_duty hc hd] at htask
  cases htask
  cases hop
  cases (hsound.fits t _ _ hd).1

theorem starting_step (h : Winds r₀ first r b pending) (htidy : r.Tidy) (hcalm : e.Calm)
    : ∀ slot c t d, (r.step e).1.cell? slot = some c → c.duty t = some d → d.op? = some .start →
      r₀.Starting slot := by
  intro slot c' t d hc' hd hop
  rcases (evolves htidy e).before hc' with ⟨spec, rfl⟩ | ⟨c, hc, rfl⟩
  . cases hd
  . rcases c.op_step r.limits r.nextTask slot e hd hop with ⟨d', hd', hop'⟩ | rfl
    . exact h.starting slot c t d' hc hd' hop'
    . rcases hcalm with ⟨grace, heq⟩
      cases heq

theorem stopping_step (h : Winds r₀ first r b pending) (htidy : r.Tidy)
    (hsound : ∀ slot c, r.cell? slot = some c → c.Sound) (hcoupled : Coupled r b flights)
    (hbreaks : OnlyLaunchesBreakOff r e) (hbacks : Backs r e b b') (hallowed : b.refusesKill = false)
    (hfirst : first ≤ b.nextPid)
    (hpending : ∀ t ∈ pending, (∀ result, .settled t result ∉ (r.step e).2) → t ∈ pending')
    : ∀ slot c pid, (r.step e).1.cell? slot = some c → c.box.Runs pid →
      (r₀.Starting slot ∧ first ≤ pid) ∨ b'.isAlive pid = false ∨
        ∃ t ∈ pending', ∃ d grace, c.duty t = some d ∧ d.op? = some (.stop grace) := by
  intro slot c' pid hc' hruns'
  have hevolves := evolves htidy e
  rcases hevolves.before hc' with ⟨spec, rfl⟩ | ⟨c, hc, rfl⟩
  . cases hruns'.pid
  . have hcsound := hsound slot c hc
    -- The box had the process before the event, or the process is launched by a start.
    rcases (hcsound.changes_step r.limits r.nextTask slot e).pid pid hruns'.pid with hpid | hlaunches
    . have hruns := hcsound.coherent.runs_of_pid hpid
      rcases h.stopping slot c pid hc hruns with hstarting | hdead | ⟨t, ht, d, grace, hd, hop⟩
      . exact .inl hstarting
      . exact .inr (.inl (hbacks.dead (hcoupled.known slot c pid hc hpid) hdead))
      . have hwhole := whole_of_allowed hc hcsound hbreaks hd hop
        rcases hcsound.stop_step (Registry.below_of_tidy htidy hc) hruns hd hop slot hwhole with
          ⟨d', hd', hop'⟩ | hquits
        . refine .inr (.inr ⟨t, hpending t ht ?_, d', grace, hd', hop'⟩)
          -- A task that is still there has not been settled.
          intro result hsettled
          have hnone := Registry.task?_of_settled htidy hsettled
          rw [Registry.task?_of_duty (hevolves.cell slot c hc) hd'] at hnone
          cases hnone
        . exact .inr (.inl (dead_of_quits hcoupled hbacks hallowed hc hquits))
    . have hlaunched := (hbacks.launched slot c pid hc hlaunches).1
      rcases hlaunches with ⟨now, t, op, rfl, hd⟩
      obtain rfl : op = .start := (hcsound.fits t op _ hd).1
      exact .inl ⟨h.starting slot c t _ hc hd rfl, by rw [hlaunched]; exact hfirst⟩

theorem step (h : Winds r₀ first r b pending) (htidy : r.Tidy)
    (hsound : ∀ slot c, r.cell? slot = some c → c.Sound) (hcoupled : Coupled r b flights) (hcalm : e.Calm)
    (hbreaks : OnlyLaunchesBreakOff r e) (hbacks : Backs r e b b') (hallowed : b.refusesKill = false)
    (hfirst : first ≤ b.nextPid)
    (hpending : ∀ t ∈ pending, (∀ result, .settled t result ∉ (r.step e).2) → t ∈ pending')
    : Winds r₀ first (r.step e).1 b' pending' where
  starting := h.starting_step htidy hcalm
  stopping := h.stopping_step htidy hsound hcoupled hbreaks hbacks hallowed hfirst hpending

theorem after (h : Winds r₀ first r b pending) {limits : Limits}
    (hr : Registry.Reachable limits OnlyLaunchesBreakOff r) (hcoupled : Coupled r b flights)
    (hallowed : b.refusesKill = false) (hfirst : first ≤ b.nextPid) {es : List Registry.Event}
    (hes : ∀ e ∈ es, e.task? = none ∧ e.Calm)
    : Winds r₀ first (r.after es) b pending := by
  induction es generalizing r with
  | nil => exact h
  | cons e es ih =>
    rcases hes e List.mem_cons_self with ⟨hquiet, hcalm⟩
    have htidy := Registry.tidy_of_reachable hr
    have hsound : ∀ slot c, r.cell? slot = some c → c.Sound := fun slot c hc => Registry.sound_of_reachable hr hc
    have hbreaks := World.allowed_of_quiet (r := r) hquiet
    have hbacks : Backs r e b b := by
      apply backs_of_same hcoupled.tidy (.refl b)
      rintro now task reply rfl
      cases hquiet
    apply ih _ (hr.step hbreaks) (hcoupled.quiet htidy hsound hquiet)
    . exact fun e' he' => hes e' (List.mem_cons_of_mem _ he')
    . exact h.step htidy hsound hcoupled hcalm hbreaks hbacks hallowed hfirst fun t ht _ => ht

end Winds

namespace World

variable {w w' w₀ : World Backend Event} {limits : Limits}

section Teardown

theorem abandon_teardown (s : Service) (id : CallerId)
    : (s.abandon id).teardown = s.teardown ∨ (s.abandon id).teardown = .idle := by
  unfold Service.abandon
  dsimp only
  split
  . split
    . exact .inr rfl
    . exact .inl rfl
  . split
    . exact .inr rfl
    . exact .inl rfl
  . exact .inl rfl
  . exact .inl rfl

theorem abandon_closed (s : Service) (id : CallerId) : (s.abandon id).closed = s.closed := by
  unfold Service.abandon
  dsimp only
  split
  . split <;> rfl
  . split <;> rfl
  . rfl
  . rfl

theorem shut_abandon {s : Service} (h : s.Shut) (id : CallerId) : (s.abandon id).Shut := by
  intro hopen
  rw [abandon_closed] at hopen
  rcases h hopen with ⟨hwaiting, hidle⟩
  refine ⟨?_, ?_⟩
  . simp [Service.abandon, hidle, hwaiting]
  . rcases abandon_teardown s id with hsame | hidle'
    . rw [hsame, hidle]
    . exact hidle'

theorem shut_of_reachable (h : Reachable limits w) : w.service.Shut := by
  induction h with
  | start plain => exact fun _ => ⟨rfl, rfl⟩
  | @step w w' hw hstep ih =>
    have hsane := sane_of_reachable hw
    cases hstep with
    | begin id wish => exact (asks_beginWish hsane id wish).shut ih
    | look id waiting hwaiting => exact (asks_advance hsane id hwaiting).shut ih
    | giveUp id => exact shut_abandon ih id
    | turn task =>
      rcases runTask_cases hsane task with ⟨e, -, hacts⟩ | hwaits
      . rw [Service.Shut, hacts.service]
        intro hopen
        rcases ih hopen with ⟨hwaiting, hidle⟩
        exact ⟨hwaiting, Teardown.settle_idle_iff.mpr hidle⟩
      . rw [Service.Shut, hwaits.service]
        exact ih
    | happen event => exact ih
    | setUp => exact ih
    | arrange service =>
      rw [service]
      exact ih

theorem closed_of_leads (h : Reachable limits w) (hleads : w.service.teardown ≠ .idle) : w.service.closed = true := by
  apply eq_true_of_ne_false
  intro hopen
  exact hleads (shut_of_reachable h hopen).2

theorem stops_of_collect (h : w.Sane limits) (hidle : w.service.teardown = .idle) (hstep : w.Step w')
    (hleads : w'.service.teardown ≠ .idle)
    : ∀ slot ∈ w'.service.registry.active,
      ∃ t ∈ w'.service.teardown.pending, ∃ grace, w'.service.registry.task? t = some ⟨slot, .enter (.stop grace)⟩ := by
  have hasks : Asks w w' → ∀ slot ∈ w'.service.registry.active,
      ∃ t ∈ w'.service.teardown.pending, ∃ grace,
        w'.service.registry.task? t = some ⟨slot, .enter (.stop grace)⟩ := by
    intro hasks
    cases hasks.turns with
    | stays same => exact absurd (same.trans hidle) hleads
    | collects _ caller tasks stopping stops =>
      rw [stopping]
      exact stops
    | passes _ inactive done => simp [inactive]
    | finishes leader stopping done =>
      rw [hidle] at stopping
      cases stopping
    | yields idle => exact absurd idle hleads
  have hsame : w'.service.teardown = w.service.teardown → False := fun hsame => hleads (hsame.trans hidle)
  cases hstep with
  | begin id wish => exact hasks (asks_beginWish h id wish)
  | look id waiting hwaiting => exact hasks (asks_advance h id hwaiting)
  | giveUp id =>
    rcases abandon_teardown w.service id with hkept | hidle'
    . exact (hsame hkept).elim
    . exact absurd hidle' hleads
  | turn task =>
    rcases runTask_cases h task with ⟨e, -, hacts⟩ | hwaits
    . rw [hacts.service] at hleads
      exact absurd (Teardown.settle_idle_iff.mpr hidle) hleads
    . exact (hsame (by rw [hwaits.service])).elim
  | happen event => exact (hsame rfl).elim
  | setUp => exact (hsame rfl).elim
  | arrange service => exact (hsame (by rw [service])).elim

end Teardown

/--
A world has come about from one in which a caller of a shutdown had just collected the active boxes. No kill
was refused since, and the caller has not given up.
-/
inductive TearsDown (limits : Limits) (w₀ : World Backend Event) : World Backend Event → Prop where
  | collect {w : World Backend Event} (reachable : Reachable limits w) (idle : w.service.teardown = .idle)
    (step : w.Step w₀) (leads : w₀.service.teardown ≠ .idle) (allowed : w₀.backend.refusesKill = false) :
    TearsDown limits w₀ w₀
  | step {w w' : World Backend Event} (torn : TearsDown limits w₀ w) (step : w.Step w')
    (leads : w'.service.teardown ≠ .idle) (allowed : w'.backend.refusesKill = false) : TearsDown limits w₀ w'

inductive Unrefused (limits : Limits) : World Backend Event → Prop where
  | start (plain : Bool) : Unrefused limits (start limits plain)
  | step {w w' : World Backend Event} (unrefused : Unrefused limits w) (step : w.Step w')
    (allowed : w'.backend.refusesKill = false) : Unrefused limits w'

theorem Unrefused.reachable (h : Unrefused limits w) : Reachable limits w := by
  induction h with
  | start plain => exact .start plain
  | step _ hstep _ ih => exact ih.step hstep

theorem TearsDown.facts (h : TearsDown limits w₀ w)
    : Reachable limits w ∧ w.service.teardown ≠ .idle ∧ w.backend.refusesKill = false := by
  induction h with
  | collect reachable idle step leads allowed => exact ⟨reachable.step step, leads, allowed⟩
  | step _ step leads allowed ih => exact ⟨ih.1.step step, leads, allowed⟩

theorem Unrefused.exists_tearsDown (h : Unrefused limits w) (hleads : w.service.teardown ≠ .idle)
    : ∃ w₀, TearsDown limits w₀ w := by
  induction h with
  | start plain => exact absurd rfl hleads
  | @step w w' hw hstep allowed ih =>
    by_cases hidle : w.service.teardown = .idle
    . exact ⟨w', .collect hw.reachable hidle hstep hleads allowed⟩
    . rcases ih hidle with ⟨w₀, htorn⟩
      exact ⟨w₀, htorn.step hstep hleads allowed⟩

structure Closes (w₀ w : World Backend Event) : Prop where
  next : w₀.backend.nextPid ≤ w.backend.nextPid
  winds : Winds w₀.service.registry w₀.backend.nextPid w.service.registry w.backend w.service.teardown.pending

theorem closes_of_collect
    (hstops : ∀ slot ∈ w₀.service.registry.active, ∃ t ∈ w₀.service.teardown.pending, ∃ grace,
      w₀.service.registry.task? t = some ⟨slot, .enter (.stop grace)⟩)
    : Closes w₀ w₀ where
  next := Nat.le_refl _
  winds := by
    constructor
    . intro slot c t d hc hd hop
      exact ⟨t, d, Registry.task?_of_duty hc hd, hop⟩
    . intro slot c pid hc hruns
      rcases hstops slot (Registry.mem_active.mpr ⟨c, hc, hruns.listed, hruns.active⟩) with ⟨t, ht, grace, htask⟩
      refine .inr (.inr ⟨t, ht, .enter (.stop grace), grace, ?_, rfl⟩)
      rw [← (Registry.cell?_eq_some.mp hc).2, Registry.duty?_eq_some, htask]

section Keeps

variable (h : Closes w₀ w) (hsane : w.Sane limits) (hallowed : w.backend.refusesKill = false)

include h hsane hallowed

theorem Closes.asks (hleads : w.service.teardown ≠ .idle) (hclosed : w.service.closed = true) (hasks : Asks w w')
    (hleads' : w'.service.teardown ≠ .idle)
    : Closes w₀ w' := by
  have hpending : ∀ t ∈ w.service.teardown.pending, t ∈ w'.service.teardown.pending := by
    intro t ht
    cases hasks.turns with
    | stays same => rwa [same]
    | collects idle caller tasks stopping stops => exact absurd idle hleads
    | passes idle inactive done => exact absurd idle hleads
    | finishes leader stopping done =>
      rw [stopping] at ht
      cases ht
    | yields idle => exact absurd idle hleads'
  rcases hasks.events with ⟨es, hregistry, hes⟩
  constructor
  . rw [hasks.backend.nextPid]
    exact h.next
  . rw [hregistry]
    have hafter := h.winds.after hsane.reachable hsane.coupled hallowed h.next fun e he =>
      ⟨(hes e he).1, (hes e he).2 hclosed⟩
    apply hafter.weaken _ hpending
    intro pid halive
    rwa [hasks.backend.isAlive] at halive

theorem Closes.acts {e : Registry.Event} (hcalm : e.Calm) (hacts : Acts w w' e) : Closes w₀ w' := by
  have htidy := Registry.tidy_of_reachable hsane.reachable
  constructor
  . exact Nat.le_trans h.next hacts.backs.next
  . rw [hacts.service]
    apply h.winds.step htidy _ hsane.coupled hcalm hacts.allowed hacts.backs hallowed h.next
    . exact fun t ht hopen => Teardown.pending_settle ht hopen
    . exact fun slot c hc => Registry.sound_of_reachable hsane.reachable hc

theorem Closes.step (hleads : w.service.teardown ≠ .idle) (hclosed : w.service.closed = true) (hstep : w.Step w')
    (hleads' : w'.service.teardown ≠ .idle)
    : Closes w₀ w' := by
  cases hstep with
  | begin id wish => exact h.asks hsane hallowed hleads hclosed (asks_beginWish hsane id wish) hleads'
  | look id waiting hwaiting => exact h.asks hsane hallowed hleads hclosed (asks_advance hsane id hwaiting) hleads'
  | giveUp id =>
    have hkept := (abandon_teardown w.service id).resolve_right hleads'
    refine ⟨h.next, ?_⟩
    rw [abandon_registry, hkept]
    exact h.winds
  | turn task =>
    rcases runTask_cases hsane task with ⟨e, he, hacts⟩ | hwaits
    . apply h.acts hsane hallowed _ hacts
      cases e with
      | turn now task => trivial
      | reply now task reply => trivial
      | _ => cases he
    . refine ⟨?_, ?_⟩
      . rw [hwaits.backend]
        exact h.next
      . rw [hwaits.service, hwaits.backend]
        exact h.winds
  | happen event =>
    refine ⟨?_, ?_⟩
    . change _ ≤ (w.backend.happen event).nextPid
      rw [w.backend.nextPid_happen event]
      exact h.next
    . apply h.winds.weaken _ fun t ht => ht
      exact fun pid halive => Backend.isAlive_happen hsane.coupled.tidy halive
  | setUp => exact ⟨h.next, h.winds.weaken (fun pid halive => halive) fun t ht => ht⟩
  | arrange service backend =>
    refine ⟨?_, ?_⟩
    . rw [backend]
      exact h.next
    . rw [service, backend]
      exact h.winds

end Keeps

theorem TearsDown.closes (h : TearsDown limits w₀ w) : Closes w₀ w := by
  induction h with
  | collect reachable idle step leads allowed =>
    have hsane := sane_of_reachable reachable
    exact closes_of_collect (stops_of_collect hsane idle step leads)
  | step torn step leads allowed ih =>
    rcases torn.facts with ⟨hreachable, hleads, hallowed⟩
    have hclosed := closed_of_leads hreachable hleads
    exact ih.step (sane_of_reachable hreachable) hallowed hleads hclosed step leads

structure Cleared (w : World Backend Event) : Prop where
  inactive : w.service.registry.active = []
  dead : ∀ pid, w.backend.isAlive pid = false
  gauge : w.service.registry.counters.active = 0

theorem cleared_of_inactive (h : w.Sane limits) (hinactive : w.service.registry.active = []) : w.Cleared := by
  have hnone : ∀ slot c, w.service.registry.cell? slot = some c → c.box.record.status.isActive = false := by
    intro slot c hc
    apply eq_false_of_ne_true
    intro hactive
    rcases (Registry.sound_of_reachable h.reachable hc).coherent.exists_runs hactive with ⟨pid, hruns⟩
    have hmem := Registry.mem_active.mpr ⟨c, hc, hruns.listed, hactive⟩
    rw [hinactive] at hmem
    cases hmem
  refine ⟨hinactive, ?_, ?_⟩
  . intro pid
    apply eq_false_of_ne_true
    intro halive
    rcases h.coupled.owned pid halive with ⟨slot, c, hc, hruns⟩
    have := hruns.active
    rw [hnone slot c hc] at this
    cases this
  . rw [Registry.gauge_of_reachable h.reachable, Registry.census, List.countP_eq_zero]
    intro b hb
    rcases List.mem_iff_getElem?.mp hb with ⟨slot, hslot⟩
    rcases Registry.exists_cell? hslot with ⟨c, hc, rfl⟩
    rw [hnone slot c hc]
    simp

theorem TearsDown.starting_of_active (h : TearsDown limits w₀ w) (hdone : w.service.teardown = .done)
    (hrest : w.AtRest) {slot : Slot} (hslot : slot ∈ w.service.registry.active)
    : w₀.service.registry.Starting slot ∧
      ∃ pid, w.service.registry.pid? slot = some pid ∧ w₀.backend.nextPid ≤ pid := by
  have hsane := sane_of_reachable h.facts.1
  rcases Registry.mem_active.mp hslot with ⟨c, hc, hlisted, hactive⟩
  rcases hrest.runs hsane hc hactive with ⟨pid, hpid, halive⟩
  rcases h.closes.winds.stopping slot c pid hc ⟨hlisted, hactive, hpid⟩ with
    ⟨hstarting, hle⟩ | hdead | ⟨t, ht, -⟩
  . exact ⟨hstarting, pid, by rw [Registry.pid?_of_cell? hc, hpid], hle⟩
  . rw [halive] at hdead
    cases hdead
  . rw [hdone] at ht
    cases ht

/--
What a shutdown leaves behind, once it is over and the world has come to rest: boxes that were being started when
the active ones were collected, with processes that were launched only then. Unless there are any, nothing
runs.
-/
theorem shutdown_leaves_only_starts (h : Unrefused limits w) (hdone : w.service.teardown = .done)
    (hrest : w.AtRest)
    : (∃ w₀, TearsDown limits w₀ w) ∧
      ∀ w₀, TearsDown limits w₀ w →
        (∀ slot ∈ w.service.registry.active, w₀.service.registry.Starting slot ∧
          ∃ pid, w.service.registry.pid? slot = some pid ∧ w₀.backend.nextPid ≤ pid) ∧
        (w.Cleared ↔ ∀ slot, w₀.service.registry.Starting slot → slot ∉ w.service.registry.active) := by
  have hleads : w.service.teardown ≠ .idle := by simp [hdone]
  refine ⟨h.exists_tearsDown hleads, ?_⟩
  intro w₀ htorn
  refine ⟨fun slot hslot => htorn.starting_of_active hdone hrest hslot, ?_⟩
  constructor
  . intro hcleared slot _
    simp [hcleared.inactive]
  . intro hnone
    apply cleared_of_inactive (sane_of_reachable h.reachable)
    rw [List.eq_nil_iff_forall_not_mem]
    intro slot hslot
    exact hnone slot (htorn.starting_of_active hdone hrest hslot).1 hslot

section SlowLaunch

def launching : World Backend Event :=
  let w := ((start {} false).beginWish 0 (.create { image := "alpine" } none)).1
  let w := { w with backend := { w.backend with launchDelay := 100 } }
  let w := (w.beginWish 0 (.operate (.ofBox 0 .full) .start)).1
  (w.runTask 0).runTask 0

def shutWhileLaunching : World Backend Event :=
  (launching.beginWish 1 (.shutdown (.ofMillis 1000))).1

def launchedAfterwards : World Backend Event :=
  (({ shutWhileLaunching with clock := 100 } : World Backend Event).runTask 0).runTask 1

theorem unrefused_launching : Unrefused {} launching := by
  have hstart : Unrefused {} (start {} false) := .start false
  have hcreated := hstart.step (.begin 0 (.create { image := "alpine" } none)) rfl
  have hslow := hcreated.step (.setUp none 100 false false false) rfl
  have hbegun := hslow.step (.begin 0 (.operate (.ofBox 0 .full) .start)) rfl
  exact (hbegun.step (.turn 0) rfl).step (.turn 0) rfl

theorem step_launchedAfterwards {P : World Backend Event → Prop} (h : P shutWhileLaunching)
    (hstep : ∀ w w', P w → w.Step w' → w'.service.teardown = .done → w'.backend.refusesKill = false → P w')
    : P launchedAfterwards := by
  have hlater : P { shutWhileLaunching with clock := 100 } :=
    hstep _ _ h (.arrange rfl rfl rfl (Nat.zero_le _)) rfl rfl
  have hlaunched := hstep _ _ hlater (.turn 0) rfl rfl
  exact hstep _ _ hlaunched (.turn 1) rfl rfl

theorem unrefused_launchedAfterwards : Unrefused {} launchedAfterwards :=
  have hshut := unrefused_launching.step (.begin 1 (.shutdown (.ofMillis 1000))) rfl
  step_launchedAfterwards hshut fun _ _ h hstep _ hallowed => h.step hstep hallowed

theorem tearsDown_launchedAfterwards : TearsDown {} shutWhileLaunching launchedAfterwards := by
  apply step_launchedAfterwards
  . have hdone : shutWhileLaunching.service.teardown = .done := rfl
    apply TearsDown.collect unrefused_launching.reachable rfl (.begin 1 (.shutdown (.ofMillis 1000)))
    . change shutWhileLaunching.service.teardown ≠ .idle
      simp [hdone]
    . rfl
  . intro w w' h hstep hdone hallowed
    exact h.step hstep (by simp [hdone]) hallowed

theorem atRest_launchedAfterwards : launchedAfterwards.AtRest :=
  atRest_of_watches [(1, 0, 10000)] [10000] rfl rfl

theorem shutdown_leaves_only_starts_launchedAfterwards
    : Unrefused {} launchedAfterwards ∧ launchedAfterwards.service.teardown = .done ∧ launchedAfterwards.AtRest ∧
      launchedAfterwards.service.registry.active = [0] ∧ launchedAfterwards.backend.isAlive 10000 = true ∧
      shutWhileLaunching.service.registry.Starting 0 ∧ ¬launchedAfterwards.Cleared := by
  have hleaves := shutdown_leaves_only_starts unrefused_launchedAfterwards rfl atRest_launchedAfterwards
  have htorn := hleaves.2 shutWhileLaunching tearsDown_launchedAfterwards
  have hmem : 0 ∈ launchedAfterwards.service.registry.active := List.mem_singleton_self 0
  have hstarting := (htorn.1 0 hmem).1
  refine ⟨unrefused_launchedAfterwards, rfl, atRest_launchedAfterwards, rfl, rfl, hstarting, ?_⟩
  intro hcleared
  exact htorn.2.mp hcleared 0 hstarting hmem

end SlowLaunch

end World

end Simulation

end BoxRegistry
