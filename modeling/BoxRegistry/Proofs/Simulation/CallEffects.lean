import BoxRegistry.Proofs.Simulation.Callers
import BoxRegistry.Proofs.Simulation.Turns

namespace BoxRegistry

namespace Registry

variable {r : Registry}

theorem task?_begin (r : Registry) (slot : Slot) (op : Operation) (t : TaskId)
    : (r.begin slot op).2.1.task? t = if t = r.nextTask then some ⟨slot, .enter op⟩ else r.task? t := by
  have := task?_assign r r.nextTask t slot (.enter op)
  exact this

theorem task?_of_quiet (h : r.Tidy) {e : Event} (he : e.task? = none) {t : TaskId} {task : Task}
    (ht : r.task? t = some task)
    : (r.step e).1.task? t = some task := by
  cases e with
  | create request now clock chance =>
    rcases step_create r request now clock chance with heq | ⟨spec, ids, -, heq⟩
    . rw [heq, ht]
    . rw [heq, task?_add, ht]
  | begin slot op =>
    simp only [step]
    split
    . have hne : t ≠ r.nextTask := Nat.ne_of_lt (h.fresh t task ht)
      rw [task?_begin]
      simp [hne, ht]
    . exact ht
  | describe slot record reading =>
    simp only [step, describe]
    cases r.boxes[slot]? with
    | none => exact ht
    | some b =>
      dsimp only
      split <;> exact ht
  | turn now task => cases he
  | reply now task reply => cases he

theorem task?_after (h : r.Tidy) {es : List Event} (hes : ∀ e ∈ es, e.task? = none) {t : TaskId} {task : Task}
    (ht : r.task? t = some task)
    : (r.after es).task? t = some task := by
  induction es generalizing r with
  | nil => exact ht
  | cons e es ih =>
    have htail := fun e' he' => hes e' (List.mem_cons_of_mem _ he')
    exact ih (evolves h e).tidy htail (task?_of_quiet h (hes e List.mem_cons_self) ht)

theorem mem_active {slot : Slot}
    : slot ∈ r.active ↔ ∃ c, r.cell? slot = some c ∧ c.box.removed = false ∧ c.box.record.status.isActive = true := by
  simp only [active, listing, List.mem_map, List.mem_filter, Prod.exists, List.mem_zipIdx_iff_getElem?]
  constructor
  . rintro ⟨slot', record, ⟨⟨b, i, ⟨hb, hlisted⟩, heq⟩, hactive⟩, rfl⟩
    cases heq
    rcases exists_cell? hb with ⟨c, hc, rfl⟩
    exact ⟨c, hc, by simpa using hlisted, hactive⟩
  . rintro ⟨c, hc, hlisted, hactive⟩
    refine ⟨slot, c.box.record, ⟨⟨c.box, slot, ⟨(cell?_eq_some.mp hc).1, ?_⟩, rfl⟩, hactive⟩, rfl⟩
    simp [hlisted]

theorem lt_of_mem_active {slot : Slot} (h : slot ∈ r.active) : slot < r.boxes.length := by
  rcases mem_active.mp h with ⟨c, hc, -⟩
  exact lt_length_of_cell? hc

structure BeginsAll (r : Registry) (op : Operation) (slots : List Slot)
    (out : List TaskId × Registry × List Effect) : Prop where
  registry : out.2.1 = r.after (slots.map fun slot => .begin slot op)
  callers : out.2.2.filterMap Effect.caller? = []
  tasks : ∀ slot ∈ slots, ∃ t ∈ out.1, out.2.1.task? t = some ⟨slot, .enter op⟩
  boxes : out.2.1.boxes = r.boxes
  length : out.1.length = slots.length

theorem beginAll_spec (h : r.Tidy) (op : Operation) {slots : List Slot}
    (hslots : ∀ slot ∈ slots, slot < r.boxes.length)
    : r.BeginsAll op slots (Service.beginAll r op slots) := by
  -- Each operation is begun in the registry that those before it lead to.
  induction slots generalizing r with
  | nil => exact ⟨rfl, rfl, by simp, rfl, rfl⟩
  | cons slot slots ih =>
    have hfirst : (r.step (.begin slot op)).1 = (r.begin slot op).2.1 := by
      simp [step, hslots slot List.mem_cons_self]
    have htidy : (r.begin slot op).2.1.Tidy := by
      rw [← hfirst]
      exact (evolves h _).tidy
    have hrest := ih htidy fun s hs => hslots s (List.mem_cons_of_mem _ hs)
    unfold Service.beginAll
    constructor
    . rw [List.map_cons, after_cons, hfirst]
      exact hrest.registry
    . exact hrest.callers
    . intro s hs
      rw [List.mem_cons] at hs
      rcases hs with rfl | hs
      . refine ⟨r.nextTask, List.mem_cons_self, ?_⟩
        dsimp only
        rw [hrest.registry]
        apply task?_after htidy (by simp [Event.task?])
        rw [task?_begin]
        simp
      . rcases hrest.tasks s hs with ⟨t, ht, htask⟩
        exact ⟨t, List.mem_cons_of_mem _ ht, htask⟩
    . exact hrest.boxes
    . exact congrArg (· + 1) hrest.length

theorem active_congr {r' : Registry} (h : r'.boxes = r.boxes) : r'.active = r.active := by
  unfold active listing
  rw [h]

end Registry

def Service.Shut (s : Service) : Prop :=
  s.closed = false → s.waiting = [] ∧ s.teardown = .idle

namespace Simulation

theorem Backend.shutdown_at_once {b : Backend} (h : b.scripts = []) (clock : Nat)
    : (((b.begin clock .shutdown).1.poll clock (b.begin clock .shutdown).2).2 = .replied .done) ∧
      b.Same ((b.begin clock .shutdown).1.poll clock (b.begin clock .shutdown).2).1 := by
  cases hplain : b.plain with
  | true => simp [begin, hplain, poll, pollServed, Same.refl]
  | false =>
    have hsame := b.same_noteErrand .shutdown
    have hscripts : (b.noteErrand .shutdown).scripts = [] := by rw [hsame.scripts, h]
    simp [begin, hplain, hscripts, poll, serve, pollServed, hsame]

namespace World

variable {w w' w'' : World Backend Event} {limits : Limits}

structure Looks (w w' : World Backend Event) : Prop where
  service : ∃ es, w'.service = { w.service with registry := w.service.registry.after es } ∧
    ∀ e ∈ es, e.task? = none ∧ (w.service.closed = true → e.Calm)
  backend : w.backend.Same w'.backend
  flights : w'.flights = w.flights

theorem Informed.looks (h : Informed w w') : Looks w w' := by
  rcases h with ⟨es, sampler, rfl, hes⟩
  exact ⟨⟨es, rfl, hes⟩, .refl _, rfl⟩

theorem update_of_quiet (h : w.Sane limits) (s : Service) (es : List Registry.Event) (effects : List Effect)
    (hregistry : s.registry = w.service.registry.after es) (hes : ∀ e ∈ es, e.task? = none)
    (hcallers : effects.filterMap Effect.caller? = [])
    : (w.update (s, effects)).service = s ∧ w.backend.Same (w.update (s, effects)).backend ∧
      (w.update (s, effects)).flights = w.flights := by
  have hupdated := updated_update h.coupled.tidy.scripts (s, effects) none
  refine ⟨hupdated.service, hupdated.backend, ?_⟩
  rcases hupdated.flights with ⟨begun, hflights, hbegun, -⟩
  rw [hcallers, List.map_eq_nil_iff] at hbegun
  rw [hflights, hbegun, List.append_nil, List.filter_eq_self]
  intro f hf
  rcases h.coupled.serves f hf with ⟨task, htask, -⟩
  rw [hregistry, Registry.task?_after (Registry.tidy_of_reachable h.reachable) hes htask]
  rfl

theorem looks_update (h : w.Sane limits) (es : List Registry.Event) (effects : List Effect)
    (hes : ∀ e ∈ es, e.task? = none ∧ (w.service.closed = true → e.Calm))
    (hcallers : effects.filterMap Effect.caller? = [])
    : Looks w (w.update ({ w.service with registry := w.service.registry.after es }, effects)) := by
  have hupdate := update_of_quiet h { w.service with registry := w.service.registry.after es } es effects rfl
    (fun e he => (hes e he).1) hcallers
  exact ⟨⟨es, hupdate.1, hes⟩, hupdate.2.1, hupdate.2.2⟩

theorem begins_stopAll (h : w.Sane limits) (grace : Time.Span)
    : w.service.registry.BeginsAll (.stop grace) w.service.registry.active
      (Service.stopAll w.service.registry grace) :=
  Registry.beginAll_spec (Registry.tidy_of_reachable h.reachable) _ fun _ => Registry.lt_of_mem_active

theorem looks_stopAll (h : w.Sane limits) (grace : Time.Span)
    : Looks w (w.update ({ w.service with registry := (Service.stopAll w.service.registry grace).2.1 },
        (Service.stopAll w.service.registry grace).2.2)) := by
  have hbegins := begins_stopAll h grace
  rw [hbegins.registry]
  exact looks_update h _ _ (by simp [Registry.Event.task?, Registry.Event.Calm]) hbegins.callers

inductive Turns (w w' : World Backend Event) : Prop where
  | stays (same : w'.service.teardown = w.service.teardown)
  -- A caller takes the lead and begins to stop the active boxes.
  | collects (idle : w.service.teardown = .idle) (caller : CallerId) (tasks : List TaskId)
    (stopping : w'.service.teardown = .stopping caller tasks)
    (stops : ∀ slot ∈ w'.service.registry.active,
      ∃ t ∈ tasks, ∃ grace, w'.service.registry.task? t = some ⟨slot, .enter (.stop grace)⟩)
  | passes (idle : w.service.teardown = .idle) (inactive : w'.service.registry.active = [])
    (done : w'.service.teardown = .done)
  | finishes (leader : CallerId) (stopping : w.service.teardown = .stopping leader [])
    (done : w'.service.teardown = .done)
  | yields (idle : w'.service.teardown = .idle)

structure Asks (w w' : World Backend Event) : Prop where
  events : ∃ es, w'.service.registry = w.service.registry.after es ∧
    ∀ e ∈ es, e.task? = none ∧ (w.service.closed = true → e.Calm)
  backend : w.backend.Same w'.backend
  flights : w'.flights = w.flights
  shut : w.service.Shut → w'.service.Shut
  turns : Turns w w'

theorem Looks.asks (h : Looks w w') : Asks w w' := by
  rcases h with ⟨⟨es, hservice, hes⟩, hbackend, hflights⟩
  refine ⟨⟨es, by rw [hservice], hes⟩, hbackend, hflights, ?_, .stays (by rw [hservice])⟩
  unfold Service.Shut
  rw [hservice]
  exact id

theorem takeTurn_close (hscripts : w.backend.scripts = []) (id : CallerId) (s : Service) (effects : List Effect)
    : let out := w.takeTurn id (s, .close, effects)
      out.1.service = (w.update (s, effects)).service.backendClosed ∧
        (w.update (s, effects)).backend.Same out.1.backend ∧
        out.1.flights = (w.update (s, effects)).flights ∧ out.2 = .finished .done (w.update (s, effects)).clock := by
  have hsame := (updated_update hscripts (s, effects) none).backend
  rcases Backend.shutdown_at_once (by rw [hsame.scripts, hscripts]) (w.update (s, effects)).clock with ⟨hpoll, hb⟩
  unfold takeTurn
  dsimp only [Engine.begin, Engine.poll]
  simp only [hpoll, true_and, and_true]
  exact hb

section Turn

variable {s : Service}

structure Called (w : World Backend Event) (s : Service) : Prop where
  registry : s.registry = w.service.registry
  teardown : s.teardown = w.service.teardown
  shut : w.service.Shut → s.Shut

theorem Called.shut_of_busy (hs : Called w s) (hbusy : s.teardown ≠ .idle ∨ s.waiting ≠ []) {s' : Service}
    (hclosed : s'.closed = s.closed)
    : w.service.Shut → s'.Shut := by
  intro hshut hopen
  have hidle := hs.shut hshut (by rw [← hclosed, hopen])
  cases hbusy with
  | inl hteardown => exact absurd hidle.2 hteardown
  | inr hwaiting => exact absurd hidle.1 hwaiting

theorem close_of_quiet (h : w.Sane limits) (id : CallerId) (s : Service) (es : List Registry.Event)
    (effects : List Effect) (hregistry : s.registry = w.service.registry.after es)
    (hes : ∀ e ∈ es, e.task? = none) (hcallers : effects.filterMap Effect.caller? = [])
    : (w.takeTurn id (s, .close, effects)).1.service = s.backendClosed ∧
      w.backend.Same (w.takeTurn id (s, .close, effects)).1.backend ∧
      (w.takeTurn id (s, .close, effects)).1.flights = w.flights := by
  rcases update_of_quiet h s es effects hregistry hes hcallers with ⟨hservice, hbackend, hflights⟩
  rcases takeTurn_close h.coupled.tidy.scripts id s effects with ⟨hservice', hbackend', hflights', -⟩
  rw [hservice', hflights', hservice, hflights]
  exact ⟨rfl, hbackend.trans hbackend', rfl⟩

theorem asks_wait (h : w.Sane limits) (id : CallerId) (hs : Called w s) (turn : Turn) (hturn : turn ≠ .close)
    : Asks w (w.takeTurn id (s, turn, [])).1 := by
  have hworld : (w.takeTurn id (s, turn, [])).1 = w.update (s, []) := by
    cases turn with
    | close => exact absurd rfl hturn
    | wait => rfl
    | done => rfl
  rcases update_of_quiet h s [] [] hs.registry (by simp) rfl with ⟨hservice, hbackend, hflights⟩
  rw [hworld]
  refine ⟨⟨[], ?_, by simp⟩, hbackend, hflights, ?_, .stays ?_⟩
  . rw [hservice, hs.registry]
    rfl
  . rw [hservice]
    exact hs.shut
  . rw [hservice, hs.teardown]

-- The leader of a shutdown closes the backend when no stop it has begun is left.
theorem asks_finish (h : w.Sane limits) (id : CallerId) (hs : Called w s) {leader : CallerId}
    (hleads : s.teardown = .stopping leader [])
    : Asks w (w.takeTurn id ({ s with teardown := .closing leader }, .close, [])).1 := by
  rcases close_of_quiet h id { s with teardown := .closing leader } [] [] hs.registry (by simp) rfl with
    ⟨hservice, hbackend, hflights⟩
  refine ⟨⟨[], ?_, by simp⟩, hbackend, hflights, ?_, .finishes leader ?_ ?_⟩
  . rw [hservice]
    exact hs.registry
  . apply hs.shut_of_busy (.inl (by simp [hleads]))
    rw [hservice]
    rfl
  . rw [← hs.teardown, hleads]
  . rw [hservice]
    rfl

section Collect

variable {grace : Time.Span}

theorem calm_of_stops (slots : List Slot) (grace : Time.Span)
    : ∀ e ∈ slots.map (fun slot => Registry.Event.begin slot (.stop grace)),
      e.task? = none ∧ (w.service.closed = true → e.Calm) := by
  simp [Registry.Event.task?, Registry.Event.Calm]

-- The caller whose turn it is finds no active box, so it closes the backend at once.
theorem asks_pass (h : w.Sane limits) (id : CallerId) (hs : Called w s) (hidle : s.teardown = .idle)
    (hwaiting : s.waiting ≠ []) (rest : List (CallerId × Time.Span))
    (hempty : (Service.stopAll s.registry grace).1 = [])
    : Asks w (w.takeTurn id
        ({ s with registry := (Service.stopAll s.registry grace).2.1, waiting := rest, teardown := .closing id },
          .close, (Service.stopAll s.registry grace).2.2)).1 := by
  have hbegins := begins_stopAll h grace
  have hcalm := calm_of_stops (w := w) w.service.registry.active grace
  rw [hs.registry] at hempty ⊢
  rcases close_of_quiet h id { s with
    registry := (Service.stopAll w.service.registry grace).2.1, waiting := rest, teardown := .closing id }
    _ _ hbegins.registry (fun e he => (hcalm e he).1) hbegins.callers with ⟨hservice, hbackend, hflights⟩
  refine ⟨⟨_, ?_, hcalm⟩, hbackend, hflights, ?_, .passes ?_ ?_ ?_⟩
  . rw [hservice]
    exact hbegins.registry
  . apply hs.shut_of_busy (.inr hwaiting)
    rw [hservice]
    rfl
  . rw [← hs.teardown, hidle]
  . have hlength := hbegins.length
    rw [hempty, List.length_nil, eq_comm, List.length_eq_zero_iff] at hlength
    rw [hservice, ← hlength]
    exact Registry.active_congr hbegins.boxes
  . rw [hservice]
    rfl

theorem asks_collect (h : w.Sane limits) (id : CallerId) (hs : Called w s) (hidle : s.teardown = .idle)
    (hwaiting : s.waiting ≠ []) (rest : List (CallerId × Time.Span))
    : Asks w (w.takeTurn id
        ({ s with
            registry := (Service.stopAll s.registry grace).2.1, waiting := rest,
            teardown := .stopping id (Service.stopAll s.registry grace).1 },
          .wait, (Service.stopAll s.registry grace).2.2)).1 := by
  have hbegins := begins_stopAll h grace
  have hcalm := calm_of_stops (w := w) w.service.registry.active grace
  rw [hs.registry]
  rcases update_of_quiet h { s with
    registry := (Service.stopAll w.service.registry grace).2.1, waiting := rest,
    teardown := .stopping id (Service.stopAll w.service.registry grace).1 }
    _ _ hbegins.registry (fun e he => (hcalm e he).1) hbegins.callers with ⟨hservice, hbackend, hflights⟩
  refine ⟨⟨_, ?_, hcalm⟩, hbackend, hflights, ?_,
    .collects ?_ id (Service.stopAll w.service.registry grace).1 ?_ ?_⟩
  . rw [← hbegins.registry]
    exact congrArg Service.registry hservice
  . exact hs.shut_of_busy (.inr hwaiting) ((congrArg Service.closed hservice).trans rfl)
  . rw [← hs.teardown, hidle]
  . exact congrArg Service.teardown hservice
  . intro slot hslot
    have hlater := congrArg (fun s : Service => s.registry.active) hservice
    have hactive := hlater.trans (Registry.active_congr hbegins.boxes)
    rcases hbegins.tasks slot (hactive ▸ hslot) with ⟨t, ht, htask⟩
    refine ⟨t, ht, grace, ?_⟩
    rw [← htask]
    exact congrArg (fun s : Service => s.registry.task? t) hservice

end Collect

theorem asks_takeTurn (h : w.Sane limits) (id : CallerId) (hs : Called w s)
    : Asks w (w.takeTurn id (s.turn id)).1 := by
  have hwait := asks_wait h id hs .wait (by simp)
  unfold Service.turn
  cases hcase : s.teardown with
  | done =>
    have hdone : Called w { s with waiting := s.waiting.filter (·.1 ≠ id) } :=
      ⟨hs.registry, hs.teardown, hs.shut_of_busy (.inl (by simp [hcase])) rfl⟩
    have := asks_wait h id hdone .done (by simp)
    rw [hcase] at this
    exact this
  | closing leader => exact hwait
  | stopping leader pending =>
    dsimp only
    split
    . next hlead =>
      rw [List.isEmpty_iff.mp hlead.2] at hcase
      exact asks_finish h id hs hcase
    . exact hwait
  | idle =>
    dsimp only
    cases hwaiting : s.waiting with
    | nil => exact hwait
    | cons first rest =>
      rcases first with ⟨first, grace⟩
      have hne : s.waiting ≠ [] := by simp [hwaiting]
      dsimp only
      split
      . split
        . next hempty => exact asks_pass h id hs hcase hne rest (List.isEmpty_iff.mp hempty)
        . exact asks_collect h id hs hcase hne rest
      . exact hwait

end Turn

theorem asks_beginWish (h : w.Sane limits) (id : CallerId) (wish : Wish) : Asks w (w.beginWish id wish).1 := by
  have hbegins := w.begins id wish
  generalize w.beginWish id wish = out at hbegins
  cases hbegins with
  | asks inquires => exact inquires.1.looks.asks
  | operates slot opened =>
    exact (looks_update h _ _ (by simp [Registry.Event.task?, opened]) rfl).asks
  | stopsAll waiting aside => exact (looks_stopAll h _).asks
  | shutsDown grace =>
    refine asks_takeTurn h id ⟨rfl, rfl, ?_⟩
    intro _ hopen
    cases hopen

theorem asks_advance (h : w.Sane limits) (id : CallerId) {waiting : Waiting}
    (hwaiting : ∀ pending, waiting ≠ .closing pending)
    : Asks w (w.advance id waiting).1 := by
  have hresumes := w.resumes id waiting
  generalize w.advance id waiting = out at hresumes
  cases hresumes with
  | asks inquires => exact inquires.1.looks.asks
  | turns => exact asks_takeTurn h id ⟨rfl, rfl, fun hshut => hshut⟩
  | closes pending => exact absurd rfl (hwaiting pending)

end World

end Simulation

end BoxRegistry
