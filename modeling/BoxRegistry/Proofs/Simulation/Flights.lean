import BoxRegistry.Proofs.Registry.Process
import BoxRegistry.Proofs.Simulation.Answers
import BoxRegistry.Simulation.Caller

namespace BoxRegistry.Simulation

def Backend.Same (b b' : Backend) : Prop :=
  ∃ notes, b' = { b with notes }

namespace Backend.Same

variable {b b' b'' : Backend}

theorem refl (b : Backend) : b.Same b := ⟨b.notes, rfl⟩

theorem trans (h : b.Same b') (h' : b'.Same b'') : b.Same b'' := by
  rcases h with ⟨notes, rfl⟩
  rcases h' with ⟨notes', rfl⟩
  exact ⟨notes', rfl⟩

theorem tidy (h : b.Same b') (hb : b.Tidy) : b'.Tidy := by
  rcases h with ⟨notes, rfl⟩
  exact ⟨hb.scripts, hb.below, hb.distinct⟩

theorem isAlive (h : b.Same b') (pid : Pid) : b'.isAlive pid = b.isAlive pid := by
  rcases h with ⟨notes, rfl⟩
  rfl

theorem isPaused (h : b.Same b') (pid : Pid) : b'.isPaused pid = b.isPaused pid := by
  rcases h with ⟨notes, rfl⟩
  rfl

theorem nextPid (h : b.Same b') : b'.nextPid = b.nextPid := by
  rcases h with ⟨notes, rfl⟩
  rfl

theorem refusesKill (h : b.Same b') : b'.refusesKill = b.refusesKill := by
  rcases h with ⟨notes, rfl⟩
  rfl

theorem scripts (h : b.Same b') : b'.scripts = b.scripts := by
  rcases h with ⟨notes, rfl⟩
  rfl

end Backend.Same

namespace Backend

theorem same_noteErrand (b : Backend) (errand : Errand) : b.Same (b.noteErrand errand) := by
  unfold noteErrand
  split <;> exact ⟨_, rfl⟩

theorem same_release (b : Backend) (pid : Pid) : b.Same (b.release pid) := by
  unfold release
  split
  . exact .refl b
  . exact ⟨_, rfl⟩

theorem begin_call {b : Backend} (h : b.scripts = []) (clock : Nat) (call : Call)
    : b.Same (b.begin clock (.call call)).1 ∧ Stands call (b.begin clock (.call call)).2 := by
  have hsame := b.same_noteErrand (.call call)
  have hscripts : (b.noteErrand (.call call)).scripts = [] := by rw [hsame.scripts, h]
  simp only [begin, reduceCtorEq, and_false, if_false, hscripts, List.find?_nil]
  exact ⟨hsame, .held⟩

end Backend

def Flight.Serves (limits : Limits) (d : Duty) (f : Flight) : Prop :=
  ∃ spec call bound, d.call? limits spec = some (call, bound) ∧ Stands call f.pending ∧
    (bound = .unlimited → f.deadline = none)

def Flight.Begun (effects : List Effect) (f : Flight) : Prop :=
  ∃ call bound, Effect.call f.task call bound ∈ effects ∧ Stands call f.pending ∧
    (bound = .unlimited → f.deadline = none)

namespace World

variable {w w' w'' : World Backend Event}

structure Performed (w w' : World Backend Event) (effects : List Effect) : Prop where
  service : w'.service = w.service
  clock : w'.clock = w.clock
  backend : w.backend.Same w'.backend
  flights : ∃ begun, w'.flights = w.flights ++ begun ∧
    begun.map Flight.task = effects.filterMap Effect.caller? ∧ ∀ f ∈ begun, f.Begun effects
  results : w'.results = (effects.filterMap Effect.result?).reverse ++ w.results

theorem performed_nil (w : World Backend Event) : Performed w w [] :=
  ⟨rfl, rfl, .refl _, ⟨[], by simp⟩, rfl⟩

theorem Performed.append {effects effects' : List Effect} (h : Performed w w' effects)
    (h' : Performed w' w'' effects')
    : Performed w w'' (effects ++ effects') where
  service := by rw [h'.service, h.service]
  clock := by rw [h'.clock, h.clock]
  backend := h.backend.trans h'.backend
  flights := by
    rcases h.flights with ⟨begun, hflights, hcallers, hbegun⟩
    rcases h'.flights with ⟨begun', hflights', hcallers', hbegun'⟩
    refine ⟨begun ++ begun', by rw [hflights', hflights, List.append_assoc], ?_, ?_⟩
    . rw [List.map_append, List.filterMap_append, hcallers, hcallers']
    . intro f hf
      rw [List.mem_append] at hf
      cases hf with
      | inl hmem =>
        rcases hbegun f hmem with ⟨call, bound, hcall, hstands⟩
        exact ⟨call, bound, List.mem_append_left _ hcall, hstands⟩
      | inr hmem =>
        rcases hbegun' f hmem with ⟨call, bound, hcall, hstands⟩
        exact ⟨call, bound, List.mem_append_right _ hcall, hstands⟩
  results := by
    rw [h'.results, h.results, List.filterMap_append, List.reverse_append, List.append_assoc]

theorem performed_perform (h : w.backend.scripts = []) (previous : Option Timer) (effect : Effect)
    : Performed w (w.perform previous effect) [effect] := by
  cases effect with
  | call task call bound =>
    have hbegin := Backend.begin_call h w.clock call
    refine ⟨rfl, rfl, hbegin.1, ⟨[_], rfl, rfl, ?_⟩, rfl⟩
    intro f hf
    rw [List.mem_singleton.mp hf]
    refine ⟨call, bound, List.mem_singleton_self _, hbegin.2, ?_⟩
    rintro rfl
    rfl
  | release pid => exact ⟨rfl, rfl, w.backend.same_release pid, ⟨[], by simp [perform, Effect.caller?]⟩, rfl⟩
  | wake task =>
    have henqueue : (w.enqueue (.task task)).service = w.service ∧ (w.enqueue (.task task)).clock = w.clock ∧
        (w.enqueue (.task task)).backend = w.backend ∧ (w.enqueue (.task task)).flights = w.flights ∧
        (w.enqueue (.task task)).results = w.results := by
      unfold enqueue
      dsimp only
      split <;> exact ⟨rfl, rfl, rfl, rfl, rfl⟩
    rcases henqueue with ⟨hservice, hclock, hbackend, hflights, hresults⟩
    refine ⟨hservice, hclock, ?_, ⟨[], by simp [perform, hflights, Effect.caller?]⟩, hresults⟩
    rw [perform, hbackend]
    exact .refl _
  | settled task result => exact ⟨rfl, rfl, .refl _, ⟨[], by simp [perform, Effect.caller?]⟩, rfl⟩

theorem performed_foldl (h : w.backend.scripts = []) (previous : Option Timer) (effects : List Effect)
    : Performed w (effects.foldl (perform previous) w) effects := by
  induction effects generalizing w with
  | nil => exact performed_nil w
  | cons effect effects ih =>
    have hfirst := performed_perform h previous effect
    have hrest := ih (w := w.perform previous effect) (by rw [hfirst.backend.scripts, h])
    exact hfirst.append hrest

structure Updated (w w' : World Backend Event) (change : Service × List Effect) : Prop where
  service : w'.service = change.1
  clock : w'.clock = w.clock
  backend : w.backend.Same w'.backend
  flights : ∃ begun,
    w'.flights = (w.flights ++ begun).filter (fun f => (change.1.registry.task? f.task).isSome) ∧
      begun.map Flight.task = change.2.filterMap Effect.caller? ∧ ∀ f ∈ begun, f.Begun change.2
  results : w'.results = (change.2.filterMap Effect.result?).reverse ++ w.results

theorem updated_update (h : w.backend.scripts = []) (change : Service × List Effect) (previous : Option Timer)
    : Updated w (w.update change previous) change := by
  have hperformed := performed_foldl (w := { w with service := change.1 }) h previous change.2
  rcases hperformed.flights with ⟨begun, hflights, hbegun⟩
  refine ⟨hperformed.service, hperformed.clock, hperformed.backend, ⟨begun, ?_, hbegun⟩, hperformed.results⟩
  unfold update
  dsimp only
  rw [hflights, hperformed.service]

end World

end BoxRegistry.Simulation
