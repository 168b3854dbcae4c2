import BoxRegistry.Proofs.Simulation.Shutdown

/-!
This module contains sessions: callers that make calls of a service, on a backend of any kind and in any order, whatever
else happens meanwhile. It tells what each kind of call leaves of the gate of the service, and what is asked of the
backend by it.
-/

namespace BoxRegistry.Simulation

open Time (Moment)

structure Recorded (β : Type) where
  backend : β
  errands : List Errand := []

instance {β ε : Type} [Engine β ε] : Engine (Recorded β) ε where
  begin b clock errand :=
    let (backend, pending) := Engine.begin b.backend clock errand
    ({ backend, errands := b.errands ++ [errand] }, pending)
  poll b clock pending :=
    let (backend, pending) := Engine.poll b.backend clock pending
    ({ b with backend }, pending)
  release b pid := { b with backend := Engine.release b.backend pid }
  happen b event := { b with backend := Engine.happen b.backend event }
  isOver b pending := Engine.isOver b.backend pending
  due? b := Engine.due? b.backend
  moveTo b clock := { b with backend := Engine.moveTo b.backend clock }

def Wish.isGated : Wish → Bool
  | .create .. | .operate .. | .exists _ | .get _ | .list => true
  | _ => false

namespace World

variable {β ε : Type}

def closings (w : World (Recorded β) ε) : Nat :=
  w.backend.errands.count .shutdown

variable [Engine β ε] {w w' w'' : World (Recorded β) ε}

structure Performs (w w' : World (Recorded β) ε) (effects : List Effect) : Prop where
  service : w'.service = w.service
  closings : w'.closings = w.closings
  results : w'.results = (effects.filterMap Effect.result?).reverse ++ w.results

theorem performs_perform (w : World (Recorded β) ε) (previous : Option Timer) (effect : Effect)
    : Performs w (w.perform previous effect) [effect] := by
  cases effect with
  | call task call bound =>
    refine ⟨rfl, ?_, rfl⟩
    simp [closings, perform, startCall, Engine.begin]
  | release pid => exact ⟨rfl, rfl, rfl⟩
  | wake task =>
    simp only [perform, enqueue]
    split <;> exact ⟨rfl, rfl, rfl⟩
  | settled task result => exact ⟨rfl, rfl, rfl⟩

theorem performs_foldl (w : World (Recorded β) ε) (previous : Option Timer) (effects : List Effect)
    : Performs w (effects.foldl (perform previous) w) effects := by
  induction effects generalizing w with
  | nil => exact ⟨rfl, rfl, rfl⟩
  | cons effect effects ih =>
    have hfirst := performs_perform w previous effect
    have hrest := ih (w.perform previous effect)
    refine ⟨hrest.service.trans hfirst.service, hrest.closings.trans hfirst.closings, ?_⟩
    rw [List.foldl_cons, hrest.results, hfirst.results, ← List.append_assoc, ← List.reverse_append,
      ← List.filterMap_append, List.singleton_append]

theorem performs_update (w : World (Recorded β) ε) (change : Service × List Effect) (previous : Option Timer)
    : Performs { w with service := change.1 } (w.update change previous) change.2 := by
  have hfold := performs_foldl { w with service := change.1 } previous change.2
  exact ⟨hfold.service, hfold.closings, hfold.results⟩

structure Retains (w w' : World (Recorded β) ε) : Prop where
  service : ∃ es waiting, w'.service = { w.service with registry := w.service.registry.after es, waiting } ∧
    (w.service.waiting = [] → waiting = [])
  closings : w'.closings = w.closings
  results : ∀ entry ∈ w.results, entry ∈ w'.results

omit [Engine β ε] in
theorem Retains.refl (w : World (Recorded β) ε) : Retains w w :=
  ⟨⟨[], _, rfl, id⟩, rfl, fun _ h => h⟩

omit [Engine β ε] in
theorem Informed.retains (h : Informed w w') : Retains w w' := by
  rcases h with ⟨es, sampler, rfl, -⟩
  exact ⟨⟨es, _, rfl, id⟩, rfl, fun _ h => h⟩

theorem retains_update (w : World (Recorded β) ε) (es : List Registry.Event) (effects : List Effect)
    : Retains w (w.update ({ w.service with registry := w.service.registry.after es }, effects)) := by
  have hperforms := performs_update w ({ w.service with registry := w.service.registry.after es }, effects) none
  refine ⟨⟨es, w.service.waiting, hperforms.service, id⟩, hperforms.closings, ?_⟩
  intro entry hentry
  rw [hperforms.results]
  exact List.mem_append_right _ hentry

def Aside (w : World (Recorded β) ε) (out : World (Recorded β) ε × Waiting) : Prop :=
  Retains w out.1 ∧ out.2.isTurn = false

omit [Engine β ε] in
theorem Inquires.aside {out : World (Recorded β) ε × Waiting} (h : Inquires w out) : Aside w out :=
  ⟨h.1.retains, h.2⟩

theorem retains_stopAll (h : w.service.registry.Tidy) (grace : Time.Span)
    : Retains w (w.update ({ w.service with registry := (Service.stopAll w.service.registry grace).2.1 },
        (Service.stopAll w.service.registry grace).2.2)) := by
  have hbegins := Registry.beginAll_spec h (.stop grace) fun _ hslot => Registry.lt_of_mem_active (r := w.service.registry) hslot
  rw [show (Service.stopAll w.service.registry grace).2.1 = _ from hbegins.registry]
  exact retains_update w _ _

theorem aside_beginWish (h : w.service.registry.Tidy) (id : CallerId) {wish : Wish}
    (hwish : ∀ grace, wish ≠ .shutdown grace)
    : Aside w (w.beginWish id wish) := by
  have hbegins := w.begins id wish
  generalize w.beginWish id wish = out at hbegins
  cases hbegins with
  | asks inquires => exact inquires.aside
  | operates slot opened => exact ⟨retains_update w _ _, rfl⟩
  | stopsAll waiting aside => exact ⟨retains_stopAll h _, aside⟩
  | shutsDown grace => exact absurd rfl (hwish grace)

theorem aside_advance (w : World (Recorded β) ε) (id : CallerId) {waiting : Waiting} (h : waiting.isTurn = false)
    : Aside w (w.advance id waiting) := by
  have hresumes := w.resumes id waiting
  generalize w.advance id waiting = out at hresumes
  cases hresumes with
  | asks inquires => exact inquires.aside
  | turns => cases h
  | closes pending => cases h

theorem beginWish_of_closed (hclosed : w.service.closed = true) {wish : Wish} (hwish : wish.isGated = true)
    (id : CallerId)
    : w.beginWish id wish = (w, .finished (.fault Service.isClosed) w.clock) := by
  have hgate : w.service.gate = .error Service.isClosed := by simp [Service.gate, hclosed]
  cases wish with
  | create request name => simp [beginWish, create, Service.create, hgate, bind, Except.bind]
  | operate key op => simp [beginWish, operate, Service.begin, hgate, bind, Except.bind]
  | «exists» key => simp [beginWish, Service.exists?, hgate, bind, Except.bind]
  | get key => simp [beginWish, Service.get, hgate, bind, Except.bind]
  | list => simp [beginWish, Service.list, hgate, bind, Except.bind]
  | _ => cases hwish

inductive Works (w w' : World (Recorded β) ε) : Prop where
  | acts (e : Registry.Event) (service : w'.service = (w.service.update (w.service.registry.step e)).1)
    (closings : w'.closings = w.closings)
    (results : w'.results = ((w.service.registry.step e).2.filterMap Effect.result?).reverse ++ w.results)
  | waits (retains : Retains w w')

theorem works_update (e : Registry.Event) (b : Recorded β) (flights : List Flight) (previous : Option Timer)
    (hb : b.errands = w.backend.errands)
    : Works w (update { w with backend := b, flights } (w.service.update (w.service.registry.step e)) previous) := by
  have hperforms := performs_update { w with backend := b, flights } (w.service.update (w.service.registry.step e)) previous
  refine .acts e hperforms.service ?_ hperforms.results
  rw [hperforms.closings]
  exact congrArg (List.count Errand.shutdown) hb

theorem works_runTask (w : World (Recorded β) ε) (task : TaskId) : Works w (w.runTask task) := by
  unfold runTask
  cases w.flights.find? fun f => f.task = task with
  | none => exact works_update (.turn w.now task) w.backend w.flights none rfl
  | some f =>
    have hpolled : (Engine.poll w.backend w.clock f.pending).1.errands = w.backend.errands := rfl
    dsimp only
    generalize Engine.poll w.backend w.clock f.pending = out at hpolled
    rcases out with ⟨backend, pending⟩
    cases pending with
    | replied reply => exact works_update (.reply w.now task reply) backend _ f.deadline hpolled
    | _ =>
      dsimp only
      split
      . exact works_update (.reply w.now task .late) backend _ f.deadline hpolled
      . exact .waits ⟨⟨[], _, rfl, id⟩, congrArg (List.count Errand.shutdown) hpolled, fun _ h => h⟩

inductive Seals (w : World (Recorded β) ε) (s : Service) : Waiting → Prop where
  | answered (service : w.service = s.backendClosed) {clock : Nat} : Seals w s (.finished .done clock)
  | waits (service : w.service = s) {pending : Pending} : Seals w s (.closing pending)
  | breaksOff {message : String} {clock : Nat} : Seals w s (.finished (.panicked message) clock)

theorem seals_advance (w : World (Recorded β) ε) (id : CallerId) (pending : Pending)
    : let out := w.advance id (.closing pending)
      Seals out.1 w.service out.2 ∧ out.1.closings = w.closings ∧ out.1.results = w.results := by
  have hpolled : (Engine.poll w.backend w.clock pending).1.errands = w.backend.errands := rfl
  simp only [advance]
  generalize Engine.poll w.backend w.clock pending = out at hpolled
  rcases out with ⟨backend, pending⟩
  have hclosings : backend.errands.count .shutdown = w.closings := congrArg _ hpolled
  cases pending with
  | replied reply =>
    cases reply with
    | panicked message => exact ⟨.breaksOff, hclosings, rfl⟩
    | _ => exact ⟨.answered rfl, hclosings, rfl⟩
  | _ => exact ⟨.waits rfl, hclosings, rfl⟩

theorem seals_takeTurn (w : World (Recorded β) ε) (id : CallerId) (s : Service) (effects : List Effect)
    : let out := w.takeTurn id (s, .close, effects)
      Seals out.1 s out.2 ∧ out.1.closings = w.closings + 1 ∧
        out.1.results = (effects.filterMap Effect.result?).reverse ++ w.results := by
  have hperforms := performs_update w (s, effects) none
  generalize hw' : w.update (s, effects) = w' at hperforms
  have hpolled : (Engine.poll (Engine.begin w'.backend w'.clock .shutdown).1 w'.clock
      (Engine.begin w'.backend w'.clock .shutdown).2).1.errands = w'.backend.errands ++ [.shutdown] := rfl
  simp only [takeTurn, hw']
  generalize Engine.poll (Engine.begin w'.backend w'.clock .shutdown).1 w'.clock
    (Engine.begin w'.backend w'.clock .shutdown).2 = out at hpolled
  rcases out with ⟨backend, pending⟩
  have hclosings : backend.errands.count .shutdown = w.closings + 1 := by
    have hbefore : w'.backend.errands.count .shutdown = w.closings := hperforms.closings
    rw [show backend.errands = _ from hpolled, List.count_append, hbefore]
    rfl
  cases pending with
  | replied reply =>
    cases reply with
    | panicked message => exact ⟨.breaksOff, hclosings, hperforms.results⟩
    | _ => exact ⟨.answered (congrArg Service.backendClosed hperforms.service), hclosings, hperforms.results⟩
  | _ =>
    refine ⟨.waits ?_, hclosings, hperforms.results⟩
    exact hperforms.service

end World

/--
A world with the calls that were made in it so far, and with what their callers wait for. A caller is known by the place
of its call.
-/
structure Session (β ε : Type) where
  world : World (Recorded β) ε
  calls : List (Wish × Waiting) := []

namespace Session

variable {β ε : Type}

def start (limits : Limits) (backend : β) : Session β ε :=
  { world := { service := { registry := { limits } }, backend := { backend } } }

inductive Event (β : Type) where
  | begin (wish : Wish)
  -- A caller looks at what it waits for.
  | look (call : CallerId)
  | giveUp (call : CallerId)
  | turn (task : TaskId)
  -- The backend is set up, or something happens in it.
  | stir (backend : β)
  | pass (clock : Nat) (now : Moment) (sampler : Sampler)

variable [Engine β ε]

def step (s : Session β ε) : Event β → Session β ε
  | .begin wish =>
    let (world, waiting) := s.world.beginWish s.calls.length wish
    { world, calls := s.calls ++ [(wish, waiting)] }
  | .look call =>
    match s.calls[call]? with
    | none => s
    | some (wish, waiting) =>
      let (world, waiting) := s.world.advance call waiting
      { world, calls := s.calls.set call (wish, waiting) }
  | .giveUp call =>
    match s.calls[call]? with
    | none | some (_, .finished ..) => s
    | some (wish, _) =>
      { world := { s.world with service := s.world.service.abandon call },
        calls := s.calls.set call (wish, .finished .cancelled s.world.clock) }
  | .turn task => { s with world := s.world.runTask task }
  | .stir backend => { s with world := { s.world with backend := { s.world.backend with backend } } }
  | .pass clock now sampler => { s with world := { s.world with clock, now, sampler } }

def run (s : Session β ε) (events : Nat → Event β) : Nat → Session β ε
  | 0 => s
  | n + 1 => (s.run events n).step (events n)

end Session

end BoxRegistry.Simulation
