import BoxRegistry.Proofs.Simulation.CallEffects

namespace BoxRegistry.Simulation

open Registry (OnlyLaunchesBreakOff)

namespace Coupled

variable {r : Registry} {b b' : Backend} {flights : List Flight}

theorem carries_of_quiet (h : Coupled r b flights) (hr : r.Tidy) {e : Registry.Event} (he : e.task? = none)
    (htimely : e.Timely r)
    : Carries r e flights flights where
  flights := by
    refine ⟨[], ?_, ?_, by simp⟩
    . have hall : flights.filter (fun f => e.task? ≠ some f.task) = flights := by
        simp [he]
      rw [hall, List.append_nil, eq_comm, List.filter_eq_self]
      intro f hf
      rcases h.serves f hf with ⟨task, htask, -⟩
      rw [Registry.task?_of_quiet hr he htask]
      rfl
    . rcases caller_of_carries hr htimely with ⟨spec, hcallers⟩
      rw [hcallers, he]
      rfl

theorem quiet (h : Coupled r b flights) (hr : r.Tidy) (hsound : ∀ slot c, r.cell? slot = some c → c.Sound)
    {e : Registry.Event} (he : e.task? = none)
    : Coupled (r.step e).1 b flights := by
  have htimely : e.Timely r := by
    cases e with
    | turn now task => cases he
    | reply now task reply => cases he
    | _ => trivial
  have hbacks : Backs r e b b := by
    apply backs_of_same h.tidy (.refl b)
    rintro now task reply rfl
    cases he
  exact h.step hr hsound htimely hbacks (h.carries_of_quiet hr he htimely)

end Coupled

namespace World

variable {w w' : World Backend Event} {limits : Limits}

theorem allowed_of_quiet {r : Registry} {e : Registry.Event} (he : e.task? = none) : OnlyLaunchesBreakOff r e := by
  cases e with
  | reply now task reply => cases he
  | _ => trivial

theorem coupled_after {r : Registry} {b : Backend} {flights : List Flight}
    (hr : Registry.Reachable limits OnlyLaunchesBreakOff r) (h : Coupled r b flights)
    {es : List Registry.Event} (hes : ∀ e ∈ es, e.task? = none)
    : Coupled (r.after es) b flights := by
  induction es generalizing r with
  | nil => exact h
  | cons e es ih =>
    have he := hes e List.mem_cons_self
    apply ih (hr.step (allowed_of_quiet he))
    . apply h.quiet (Registry.tidy_of_reachable hr) _ he
      exact fun slot c hc => Registry.sound_of_reachable hr hc
    . exact fun e' he' => hes e' (List.mem_cons_of_mem _ he')

theorem Sane.asks (h : w.Sane limits) (hasks : Asks w w') : w'.Sane limits := by
  rcases hasks.events with ⟨es, hregistry, hes⟩
  have hquiet := fun e he => (hes e he).1
  constructor
  . rw [hregistry]
    exact h.reachable.after fun r e he => allowed_of_quiet (hquiet e he)
  . rw [hregistry, hasks.flights]
    apply (coupled_after h.reachable h.coupled hquiet).weaken
    . exact hasks.backend.tidy h.coupled.tidy
    . exact hasks.backend.nextPid
    . intro pid halive
      rwa [hasks.backend.isAlive] at halive

theorem Sane.waits (h : w.Sane limits) (hwaits : Waits w w') : w'.Sane limits := by
  refine ⟨?_, hwaits.coupled⟩
  rw [hwaits.service]
  exact h.reachable

def start (limits : Limits) (plain : Bool) : World Backend Event :=
  { service := { registry := { limits } }, backend := { plain } }

/--
A step of a world. Callers and tasks have their turns in any order, and processes end or get lost at any
moment. How the backend answers is set up from outside.
-/
inductive Step (w : World Backend Event) : World Backend Event → Prop where
  | begin (id : CallerId) (wish : Wish) : Step w (w.beginWish id wish).1
  -- A caller looks at what it waits for. The backend closes at once, so none waits for that.
  | look (id : CallerId) (waiting : Waiting) (open' : ∀ pending, waiting ≠ .closing pending) :
    Step w (w.advance id waiting).1
  | giveUp (id : CallerId) : Step w { w with service := w.service.abandon id }
  -- A task has its turn, whether it has something to do or not.
  | turn (task : TaskId) : Step w (w.runTask task)
  | happen (event : Event) : Step w { w with backend := Engine.happen w.backend event }
  | setUp (launchFault : Option String) (launchDelay : Nat) (launchPanics ignoresRequests refusesKill : Bool) :
    Step w { w with backend := { w.backend with
      launchFault, launchDelay, launchPanics, ignoresRequests, refusesKill } }
  -- The clock moves on, the sampler is set up, or jobs are put in order.
  | arrange {w' : World Backend Event} (service : w'.service = w.service) (backend : w'.backend = w.backend)
    (flights : w'.flights = w.flights) (clock : w.clock ≤ w'.clock) : Step w w'

inductive Reachable (limits : Limits) : World Backend Event → Prop where
  | start (plain : Bool) : Reachable limits (start limits plain)
  | step {w w' : World Backend Event} : Reachable limits w → w.Step w' → Reachable limits w'

theorem sane_start (limits : Limits) (plain : Bool) : (start limits plain).Sane limits := by
  have hnone : ∀ slot, (start limits plain).service.registry.cell? slot = none := by
    intro slot
    simp [start, Registry.cell?]
  refine ⟨.start, ?_⟩
  constructor
  . exact ⟨rfl, by simp [start], by simp [start]⟩
  . simp [hnone]
  . intro pid halive
    simp [start, Backend.isAlive, Backend.process?] at halive
  . simp [hnone]
  . simp [hnone]
  . simp [start]
  . simp [start, Registry.task?]
  . simp [start]

theorem abandon_registry (s : Service) (id : CallerId) : (s.abandon id).registry = s.registry := by
  unfold Service.abandon
  dsimp only
  split
  . split <;> rfl
  . split <;> rfl
  . rfl
  . rfl

theorem Sane.step (h : w.Sane limits) (hstep : w.Step w') : w'.Sane limits := by
  cases hstep with
  | begin id wish => exact h.asks (asks_beginWish h id wish)
  | look id waiting open' => exact h.asks (asks_advance h id open')
  | giveUp id =>
    constructor
    . rw [abandon_registry]
      exact h.reachable
    . rw [abandon_registry]
      exact h.coupled
  | turn task =>
    -- The task takes an event of the registry, or it goes on waiting for its call.
    rcases runTask_cases h task with ⟨e, -, hacts⟩ | hwaits
    . exact h.acts hacts
    . exact h.waits hwaits
  | happen event =>
    refine ⟨h.reachable, h.coupled.weaken ?_ ?_ ?_⟩
    . exact Backend.tidy_happen h.coupled.tidy event
    . exact w.backend.nextPid_happen event
    . exact fun pid halive => Backend.isAlive_happen h.coupled.tidy halive
  | setUp launchFault launchDelay launchPanics ignoresRequests refusesKill =>
    have htidy := h.coupled.tidy
    exact ⟨h.reachable, h.coupled.weaken ⟨htidy.scripts, htidy.below, htidy.distinct⟩ rfl fun pid halive => halive⟩
  | arrange service backend flights clock =>
    constructor
    . rw [service]
      exact h.reachable
    . rw [service, backend, flights]
      exact h.coupled

theorem sane_of_reachable (h : Reachable limits w) : w.Sane limits := by
  induction h with
  | start plain => exact sane_start limits plain
  | step _ hstep ih => exact ih.step hstep

end World

end BoxRegistry.Simulation
