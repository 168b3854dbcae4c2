import BoxRegistry.Proofs.Simulation.Session

namespace BoxRegistry

namespace Teardown

def closings : Teardown → Nat
  | idle | stopping .. => 0
  | closing _ | done => 1

def leader? : Teardown → Option CallerId
  | stopping leader _ | closing leader => some leader
  | idle | done => none

inductive Later : Teardown → Teardown → Prop where
  | idle {t : Teardown} : Later .idle t
  | stops {leader : CallerId} {pending pending' : List TaskId} (fewer : pending'.Sublist pending) :
    Later (.stopping leader pending) (.stopping leader pending')
  | asks {leader : CallerId} {pending : List TaskId} : Later (.stopping leader pending) (.closing leader)
  | closes {leader : CallerId} {pending : List TaskId} : Later (.stopping leader pending) .done
  | stays {leader : CallerId} : Later (.closing leader) (.closing leader)
  | ends {leader : CallerId} : Later (.closing leader) .done
  | done : Later .done .done

variable {t t' t'' : Teardown}

theorem Later.refl (t : Teardown) : Later t t := by
  cases t with
  | idle => exact .idle
  | stopping leader pending => exact .stops (List.Sublist.refl pending)
  | closing leader => exact .stays
  | done => exact .done

theorem Later.trans (h : Later t t') (h' : Later t' t'') : Later t t'' := by
  cases h with
  | idle => exact .idle
  | stops fewer =>
    cases h' with
    | stops fewer' => exact .stops (fewer'.trans fewer)
    | asks => exact .asks
    | closes => exact .closes
  | asks =>
    cases h' with
    | stays => exact .asks
    | ends => exact .closes
  | closes =>
    cases h'
    exact .closes
  | stays => exact h'
  | ends =>
    cases h'
    exact .ends
  | done => exact h'

theorem Later.led (h : Later t t') (hled : t ≠ .idle) : t' ≠ .idle := by
  cases h <;> simp_all

theorem later_settle (t : Teardown) (effects : List Effect) : Later t (t.settle effects) := by
  cases t with
  | stopping leader pending => exact .stops List.filter_sublist
  | _ => exact .refl _

@[simp]
theorem closings_settle (t : Teardown) (effects : List Effect) : (t.settle effects).closings = t.closings := by
  cases t <;> rfl

@[simp]
theorem leader?_settle (t : Teardown) (effects : List Effect) : (t.settle effects).leader? = t.leader? := by
  cases t <;> rfl

end Teardown

namespace Simulation

open Time (Span)

def Waiting.Fits (call : CallerId) (t : Teardown) : Waiting → Prop
  | .shutdown => t ≠ .idle ∧ t ≠ .closing call
  | .closing _ => t = .closing call
  | .finished outcome _ => outcome = .done ∧ t = .done
  | _ => False

theorem Waiting.led_of_fits {call : CallerId} {t : Teardown} {waiting : Waiting} (h : waiting.Fits call t)
    : t ≠ .idle := by
  cases waiting <;> simp_all [Fits]

theorem Waiting.eq_shutdown_of_fits {call leader : CallerId} {pending : List TaskId} {waiting : Waiting}
    (h : waiting.Fits call (.stopping leader pending))
    : waiting = .shutdown := by
  cases waiting <;> simp_all [Fits]

theorem Waiting.exists_pending_of_fits {call : CallerId} {waiting : Waiting} (h : waiting.Fits call (.closing call))
    : ∃ pending, waiting = .closing pending := by
  cases waiting <;> simp_all [Fits]

theorem Waiting.fits_settle {call : CallerId} {t : Teardown} {waiting : Waiting} (h : waiting.Fits call t)
    (effects : List Effect)
    : waiting.Fits call (t.settle effects) := by
  cases t <;> cases waiting <;> simp_all [Fits, Teardown.settle]

inductive Advances (call : CallerId) : Teardown → Teardown → Waiting → Prop where
  | waits {t : Teardown} (led : t ≠ .idle) (other : t ≠ .closing call) : Advances call t t .shutdown
  | collects {tasks : List TaskId} : Advances call .idle (.stopping call tasks) .shutdown
  | asks {t : Teardown} {pending : Pending} (ready : t = .idle ∨ t = .stopping call []) :
    Advances call t (.closing call) (.closing pending)
  | closes {t : Teardown} {clock : Nat} (ready : t = .idle ∨ t = .stopping call []) :
    Advances call t .done (.finished .done clock)
  | stays {pending : Pending} : Advances call (.closing call) (.closing call) (.closing pending)
  | ends {clock : Nat} : Advances call (.closing call) .done (.finished .done clock)
  | returns {clock : Nat} : Advances call .done .done (.finished .done clock)

namespace Advances

variable {call : CallerId} {t t' : Teardown} {waiting : Waiting}

theorem fits (h : Advances call t t' waiting) : waiting.Fits call t' := by
  cases h <;> simp_all [Waiting.Fits]

theorem fits_other (h : Advances call t t' waiting) {other : CallerId} (hne : other ≠ call) {waiting' : Waiting}
    (hfits : waiting'.Fits other t)
    : waiting'.Fits other t' := by
  cases h <;> cases waiting' <;> simp_all [Waiting.Fits, eq_comm]

theorem later (h : Advances call t t' waiting) : t.Later t' := by
  cases h with
  | waits => exact .refl t
  | collects => exact .idle
  | asks ready =>
    rcases ready with rfl | rfl
    . exact .idle
    . exact .asks
  | closes ready =>
    rcases ready with rfl | rfl
    . exact .idle
    . exact .closes
  | stays => exact .stays
  | ends => exact .ends
  | returns => exact .done

theorem leader (h : Advances call t t' waiting) : t'.leader? = some call ∨ t'.leader? = t.leader? ∨ t'.leader? = none := by
  cases h <;> simp [Teardown.leader?]

theorem led (h : Advances call t t' waiting) : t' ≠ .idle := by
  cases h <;> simp_all

theorem pending (h : Advances call t t' waiting) (hled : t ≠ .idle) : t'.pending = t.pending := by
  cases h with
  | collects => exact absurd rfl hled
  | asks ready =>
    rcases ready with rfl | rfl
    . exact absurd rfl hled
    . rfl
  | closes ready =>
    rcases ready with rfl | rfl
    . exact absurd rfl hled
    . rfl
  | _ => rfl

end Advances

namespace World

variable {β ε : Type} {w : World (Recorded β) ε}

theorem retains_abandon {call : CallerId} (hleader : w.service.teardown.leader? ≠ some call)
    : Retains w { w with service := w.service.abandon call } := by
  have hservice : w.service.abandon call =
      { w.service with waiting := w.service.waiting.filter (·.1 ≠ call) } := by
    unfold Service.abandon
    split
    . next leader pending hcase =>
      rw [if_neg]
      rintro rfl
      exact hleader (by rw [hcase]; rfl)
    . next leader hcase =>
      rw [if_neg]
      rintro rfl
      exact hleader (by rw [hcase]; rfl)
    . rfl
    . rfl
  refine ⟨⟨[], w.service.waiting.filter (·.1 ≠ call), hservice, ?_⟩, rfl, fun _ h => h⟩
  intro hempty
  rw [hempty]
  rfl

structure Turned (w : World (Recorded β) ε) (s : Service) (call : CallerId) (out : World (Recorded β) ε × Waiting) :
    Prop where
  advances : Advances call s.teardown out.1.service.teardown out.2
  closed : out.1.service.closed = s.closed
  closings : out.1.closings + s.teardown.closings = w.closings + out.1.service.teardown.closings
  registry : ∃ es, out.1.service.registry = s.registry.after es
  results : ∀ entry ∈ w.results, entry ∈ out.1.results

theorem turned_of_service {w w' : World (Recorded β) ε} {s s' : Service} {call : CallerId} {waiting : Waiting}
    (hservice : w'.service = s') (advances : Advances call s.teardown s'.teardown waiting) (hclosed : s'.closed = s.closed)
    (hclosings : w'.closings + s.teardown.closings = w.closings + s'.teardown.closings)
    (hregistry : ∃ es, s'.registry = s.registry.after es)
    (hresults : ∃ performed, w'.results = performed ++ w.results)
    : Turned w s call (w', waiting) := by
  rcases hresults with ⟨performed, hresults⟩
  subst hservice
  refine ⟨advances, hclosed, hclosings, hregistry, fun entry hentry => ?_⟩
  rw [hresults]
  exact List.mem_append_right _ hentry

variable [Engine β ε]

-- The backend has not been asked for anything but by tasks.
theorem turned_update (w : World (Recorded β) ε) {s s' : Service} {call : CallerId} {waiting : Waiting}
    {effects : List Effect} (advances : Advances call s.teardown s'.teardown waiting)
    (hclosed : s'.closed = s.closed) (hclosings : s'.teardown.closings = s.teardown.closings)
    (hregistry : ∃ es, s'.registry = s.registry.after es)
    : Turned w s call (w.update (s', effects), waiting) := by
  have hperforms := performs_update w (s', effects) none
  refine turned_of_service hperforms.service advances hclosed ?_ hregistry ⟨_, hperforms.results⟩
  rw [hperforms.closings, hclosings]
  rfl

-- A caller that closes the backend stays with it, and is done once the backend has replied.
theorem turned_close (w : World (Recorded β) ε) {s s' : Service} {call : CallerId} {effects : List Effect}
    (ready : s.teardown = .idle ∨ s.teardown = .stopping call []) (hteardown : s'.teardown = .closing call)
    (hclosed : s'.closed = s.closed) (hregistry : ∃ es, s'.registry = s.registry.after es)
    (hwhole : ∀ message clock, (w.takeTurn call (s', .close, effects)).2 ≠ .finished (.panicked message) clock)
    : Turned w s call (w.takeTurn call (s', .close, effects)) := by
  rcases seals_takeTurn w call s' effects with ⟨hseals, hclosings, hresults⟩
  generalize w.takeTurn call (s', .close, effects) = out at hseals hclosings hresults hwhole
  rcases out with ⟨w', waiting⟩
  have hzero : s.teardown.closings = 0 := by rcases ready with heq | heq <;> rw [heq] <;> rfl
  cases hseals with
  | answered service =>
    refine turned_of_service service (.closes ready) hclosed ?_ hregistry ⟨_, hresults⟩
    rw [hclosings, hzero]
    rfl
  | waits service =>
    refine turned_of_service service ?_ hclosed ?_ hregistry ⟨_, hresults⟩
    . rw [hteardown]
      exact .asks ready
    . rw [hteardown, hclosings, hzero]
      rfl
  | breaksOff => exact absurd rfl (hwhole _ _)

theorem turned_turn (w : World (Recorded β) ε) {s : Service} {call : CallerId} (htidy : s.registry.Tidy)
    (hother : s.teardown ≠ .closing call)
    (hfirst : s.teardown = .idle → ∃ grace rest, s.waiting = (call, grace) :: rest)
    (hwhole : ∀ message clock, (w.takeTurn call (s.turn call)).2 ≠ .finished (.panicked message) clock)
    : Turned w s call (w.takeTurn call (s.turn call)) := by
  unfold Service.turn at hwhole ⊢
  cases hcase : s.teardown with
  | done =>
    have hadvances : Advances call s.teardown .done (.finished .done (w.update ({ s with
        teardown := .done, waiting := s.waiting.filter (·.1 ≠ call) }, [])).clock) := by
      rw [hcase]
      exact .returns
    exact turned_update w hadvances rfl (by rw [hcase]) ⟨[], rfl⟩
  | closing leader => exact turned_update w (.waits (by simp [hcase]) hother) rfl rfl ⟨[], rfl⟩
  | stopping leader pending =>
    rw [hcase] at hwhole
    dsimp only at hwhole ⊢
    split
    . next hlead =>
      rw [if_pos hlead] at hwhole
      rcases hlead with ⟨rfl, hempty⟩
      rw [List.isEmpty_iff.mp hempty] at hcase
      exact turned_close w (.inr hcase) rfl rfl ⟨[], rfl⟩ hwhole
    . exact turned_update w (.waits (by simp [hcase]) hother) rfl rfl ⟨[], rfl⟩
  | idle =>
    rcases hfirst hcase with ⟨grace, rest, hwaiting⟩
    have hbegins := Registry.beginAll_spec htidy (.stop grace) fun _ hslot => Registry.lt_of_mem_active (r := s.registry) hslot
    rw [hcase, hwaiting] at hwhole
    rw [hwaiting]
    dsimp only at hwhole ⊢
    rw [if_pos rfl] at hwhole ⊢
    split
    . next hempty =>
      rw [if_pos hempty] at hwhole
      exact turned_close w (.inl hcase) rfl rfl ⟨_, hbegins.registry⟩ hwhole
    . have hadvances : Advances call s.teardown (.stopping call (Service.stopAll s.registry grace).1) .shutdown := by
        rw [hcase]
        exact .collects
      exact turned_update w hadvances rfl (by rw [hcase]; rfl) ⟨_, hbegins.registry⟩

theorem collects_turn (w : World (Recorded β) ε) {s : Service} {call : CallerId} {grace : Span}
    {rest : List (CallerId × Span)} (hidle : s.teardown = .idle) (hwaiting : s.waiting = (call, grace) :: rest)
    (hwhole : ∀ message clock, (w.takeTurn call (s.turn call)).2 ≠ .finished (.panicked message) clock)
    : (w.takeTurn call (s.turn call)).1.service.registry = (Service.stopAll s.registry grace).2.1 ∧
      (w.takeTurn call (s.turn call)).1.service.teardown.pending = (Service.stopAll s.registry grace).1 := by
  have hturn : s.turn call =
      if (Service.stopAll s.registry grace).1.isEmpty then
        ({ s with registry := (Service.stopAll s.registry grace).2.1, waiting := rest, teardown := .closing call },
          .close, (Service.stopAll s.registry grace).2.2)
      else
        ({ s with
            registry := (Service.stopAll s.registry grace).2.1, waiting := rest,
            teardown := .stopping call (Service.stopAll s.registry grace).1 },
          .wait, (Service.stopAll s.registry grace).2.2) := by
    simp only [Service.turn, hidle, hwaiting, if_true]
  rw [hturn] at hwhole ⊢
  split
  . next hempty =>
    rw [if_pos hempty] at hwhole
    rw [List.isEmpty_iff.mp hempty]
    rcases seals_takeTurn w call { s with
      registry := (Service.stopAll s.registry grace).2.1, waiting := rest, teardown := .closing call }
      (Service.stopAll s.registry grace).2.2 with ⟨hseals, -⟩
    generalize w.takeTurn call _ = out at hseals hwhole
    rcases out with ⟨w', waiting⟩
    cases hseals with
    | answered service =>
      rw [service]
      exact ⟨rfl, rfl⟩
    | waits service =>
      rw [service]
      exact ⟨rfl, rfl⟩
    | breaksOff => exact absurd rfl (hwhole _ _)
  . have hservice := (performs_update w ({ s with
      registry := (Service.stopAll s.registry grace).2.1, waiting := rest,
      teardown := .stopping call (Service.stopAll s.registry grace).1 },
      (Service.stopAll s.registry grace).2.2) none).service
    exact ⟨congrArg Service.registry hservice, congrArg (fun s : Service => s.teardown.pending) hservice⟩

theorem turned_closing (w : World (Recorded β) ε) {call : CallerId} {pending : Pending}
    (hcase : w.service.teardown = .closing call)
    (hwhole : ∀ message clock, (w.advance call (.closing pending)).2 ≠ .finished (.panicked message) clock)
    : Turned w w.service call (w.advance call (.closing pending)) := by
  rcases seals_advance w call pending with ⟨hseals, hclosings, hresults⟩
  generalize w.advance call (.closing pending) = out at hseals hclosings hresults hwhole
  rcases out with ⟨w', waiting⟩
  cases hseals with
  | answered service =>
    refine turned_of_service service ?_ rfl ?_ ⟨[], rfl⟩ ⟨[], hresults⟩
    . rw [hcase]
      exact .ends
    . rw [hclosings, hcase]
      rfl
  | waits service =>
    refine turned_of_service service ?_ rfl ?_ ⟨[], rfl⟩ ⟨[], hresults⟩
    . rw [hcase]
      exact .stays
    . rw [hclosings, hcase]
  | breaksOff => exact absurd rfl (hwhole _ _)

end World

theorem tidy_after {r : Registry} (h : r.Tidy) (es : List Registry.Event) : (r.after es).Tidy := by
  induction es generalizing r with
  | nil => exact h
  | cons e es ih => exact ih (Registry.evolves h e).tidy

namespace Session

variable {β ε : Type} {s s' : Session β ε}

/--
All callers of a shutdown wait for it: none has given up, and none was broken off by the backend.
-/
def Patient (s : Session β ε) : Prop :=
  ∀ (call : CallerId) (grace : Span) (outcome : Outcome) (clock : Nat),
    s.calls[call]? = some (.shutdown grace, .finished outcome clock) →
      outcome ≠ .cancelled ∧ ∀ message, outcome ≠ .panicked message

structure Gated (s : Session β ε) : Prop where
  tidy : s.world.service.registry.Tidy
  idle : s.world.service.teardown = .idle ↔ s.world.service.closed = false
  queue : s.world.service.closed = false → s.world.service.waiting = []
  fits : ∀ (call : CallerId) (grace : Span) (waiting : Waiting), s.calls[call]? = some (.shutdown grace, waiting) →
    waiting.Fits call s.world.service.teardown
  aside : ∀ (call : CallerId) (wish : Wish) (waiting : Waiting), s.calls[call]? = some (wish, waiting) →
    (∀ grace, wish ≠ .shutdown grace) → waiting.isTurn = false
  leader : ∀ call, s.world.service.teardown.leader? = some call →
    ∃ grace waiting, s.calls[call]? = some (.shutdown grace, waiting)
  closings : s.world.closings = s.world.service.teardown.closings
  called : s.world.service.closed = true →
    ∃ (call : CallerId) (grace : Span) (waiting : Waiting), s.calls[call]? = some (.shutdown grace, waiting)

inductive Goes (s s' : Session β ε) : Prop where
  | keeps (world : s.world.Retains s'.world)
    (calls : ∀ (call : CallerId) (grace : Span) (waiting : Waiting),
      s'.calls[call]? = some (.shutdown grace, waiting) ↔ s.calls[call]? = some (.shutdown grace, waiting))
    (aside : ∀ (call : CallerId) (wish : Wish) (waiting : Waiting), s'.calls[call]? = some (wish, waiting) →
      (∀ grace, wish ≠ .shutdown grace) → waiting.isTurn = false)
  | works (world : s.world.Works s'.world) (calls : s'.calls = s.calls)
  | turns (call : CallerId) (grace : Span) (waiting : Waiting) (service : Service)
    (teardown : service.teardown = s.world.service.teardown) (closed : service.closed = true)
    (registry : service.registry = s.world.service.registry)
    (turned : s.world.Turned service call (s'.world, waiting))
    (own : s'.calls[call]? = some (.shutdown grace, waiting))
    (others : ∀ i, i ≠ call → s'.calls[i]? = s.calls[i]?)

theorem gated_start (limits : Limits) (backend : β) : (start limits backend : Session β ε).Gated where
  tidy := Registry.tidy_start limits
  idle := ⟨fun _ => rfl, fun _ => rfl⟩
  queue := fun _ => rfl
  fits := by simp [start]
  aside := by simp [start]
  leader := by simp [start, Teardown.leader?]
  closings := rfl
  called := by simp [start]

theorem Gated.keeps (h : s.Gated) (world : s.world.Retains s'.world)
    (calls : ∀ (call : CallerId) (grace : Span) (waiting : Waiting),
      s'.calls[call]? = some (.shutdown grace, waiting) ↔ s.calls[call]? = some (.shutdown grace, waiting))
    (aside : ∀ (call : CallerId) (wish : Wish) (waiting : Waiting), s'.calls[call]? = some (wish, waiting) →
      (∀ grace, wish ≠ .shutdown grace) → waiting.isTurn = false)
    : s'.Gated := by
  rcases world.service with ⟨es, waiting, hservice, hnone⟩
  refine ⟨?_, ?_, ?_, ?_, aside, ?_, ?_, ?_⟩
  . rw [hservice]
    exact tidy_after h.tidy es
  . rw [hservice]
    exact h.idle
  . rw [hservice]
    exact fun hopen => hnone (h.queue hopen)
  . intro call grace waiting hcall
    rw [hservice]
    exact h.fits call grace waiting ((calls call grace waiting).mp hcall)
  . intro call hleads
    rw [hservice] at hleads
    rcases h.leader call hleads with ⟨grace, waiting, hcall⟩
    exact ⟨grace, waiting, (calls call grace waiting).mpr hcall⟩
  . rw [world.closings, hservice, h.closings]
  . intro hclosed
    rw [hservice] at hclosed
    rcases h.called hclosed with ⟨call, grace, waiting, hcall⟩
    exact ⟨call, grace, waiting, (calls call grace waiting).mpr hcall⟩

theorem Gated.works (h : s.Gated) (world : s.world.Works s'.world) (calls : s'.calls = s.calls) : s'.Gated := by
  cases world with
  | waits retains => exact h.keeps retains (fun call grace waiting => by rw [calls]) (by rw [calls]; exact h.aside)
  | acts e service closings results =>
    refine ⟨?_, ?_, ?_, ?_, by rw [calls]; exact h.aside, ?_, ?_, ?_⟩
    . rw [service]
      exact (Registry.evolves h.tidy e).tidy
    . rw [service]
      exact Teardown.settle_idle_iff.trans h.idle
    . rw [service]
      exact h.queue
    . intro call grace waiting hcall
      rw [calls] at hcall
      rw [service]
      exact Waiting.fits_settle (h.fits call grace waiting hcall) _
    . intro call hleads
      rw [service] at hleads
      rw [calls]
      exact h.leader call (by simpa [Service.update] using hleads)
    . rw [service, closings, h.closings]
      simp [Service.update]
    . rw [service, calls]
      exact h.called

theorem Gated.turns (h : s.Gated) {call : CallerId} {grace : Span} {waiting : Waiting} {service : Service}
    (teardown : service.teardown = s.world.service.teardown) (closed : service.closed = true)
    (registry : service.registry = s.world.service.registry)
    (turned : s.world.Turned service call (s'.world, waiting))
    (own : s'.calls[call]? = some (.shutdown grace, waiting)) (others : ∀ i, i ≠ call → s'.calls[i]? = s.calls[i]?)
    : s'.Gated := by
  have hclosed : s'.world.service.closed = true := turned.closed.trans closed
  have hled := turned.advances.led
  refine ⟨?_, ?_, ?_, ?_, ?_, ?_, ?_, fun _ => ⟨call, grace, waiting, own⟩⟩
  . rcases turned.registry with ⟨es, hes⟩
    rw [hes, registry]
    exact tidy_after h.tidy es
  . simp [hclosed, hled]
  . simp [hclosed]
  . intro other grace' waiting' hcall
    by_cases heq : other = call
    . subst heq
      rw [own] at hcall
      cases hcall
      exact turned.advances.fits
    . rw [others other heq] at hcall
      apply turned.advances.fits_other heq
      rw [teardown]
      exact h.fits other grace' waiting' hcall
  . intro other wish waiting' hcall hwish
    by_cases heq : other = call
    . subst heq
      rw [own] at hcall
      cases hcall
      exact absurd rfl (hwish grace)
    . rw [others other heq] at hcall
      exact h.aside other wish waiting' hcall hwish
  . intro leader hleads
    rcases turned.advances.leader with hown | hsame | hnone
    . rw [hown] at hleads
      cases hleads
      exact ⟨grace, waiting, own⟩
    . rw [hsame, teardown] at hleads
      rcases h.leader leader hleads with ⟨grace', waiting', hcall⟩
      by_cases heq : leader = call
      . exact ⟨grace, waiting, heq ▸ own⟩
      . exact ⟨grace', waiting', by rw [others leader heq, hcall]⟩
    . rw [hnone] at hleads
      cases hleads
  . have hclosings := turned.closings
    rw [teardown, h.closings] at hclosings
    dsimp only at hclosings
    omega

theorem Gated.goes (h : s.Gated) (hgoes : s.Goes s') : s'.Gated := by
  cases hgoes with
  | keeps world calls aside => exact h.keeps world calls aside
  | works world calls => exact h.works world calls
  | turns call grace waiting service teardown closed registry turned own others =>
    exact h.turns teardown closed registry turned own others

theorem goes_aside (h : s.Gated) {world : World (Recorded β) ε} (hretains : s.world.Retains world)
    {calls : List (Wish × Waiting)} {call : CallerId} {wish : Wish} {waiting : Waiting}
    (hwish : ∀ grace, wish ≠ .shutdown grace) (hquiet : waiting.isTurn = false)
    (hown : calls[call]? = some (wish, waiting)) (hothers : ∀ i, i ≠ call → calls[i]? = s.calls[i]?)
    (hbefore : ∀ grace waiting, s.calls[call]? ≠ some (.shutdown grace, waiting))
    : s.Goes { world, calls } := by
  apply Goes.keeps hretains
  . intro i grace waiting'
    by_cases heq : i = call
    . subst heq
      rw [hown]
      constructor
      . intro hcall
        cases hcall
        exact absurd rfl (hwish grace)
      . exact fun hcall => absurd hcall (hbefore grace waiting')
    . rw [hothers i heq]
  . intro i wish' waiting' hcall hwish'
    by_cases heq : i = call
    . subst heq
      rw [hown] at hcall
      cases hcall
      exact hquiet
    . rw [hothers i heq] at hcall
      exact h.aside i wish' waiting' hcall hwish'

theorem Goes.refl (h : s.Gated) : s.Goes s := .keeps (.refl s.world) (fun _ _ _ => Iff.rfl) h.aside

theorem getElem?_concat_ne (calls : List (Wish × Waiting)) (entry : Wish × Waiting) {i : Nat} (hne : i ≠ calls.length)
    : (calls ++ [entry])[i]? = calls[i]? := by
  rw [List.getElem?_append]
  split
  . rfl
  . next hge =>
    have hlt : calls.length < i := by omega
    rw [List.getElem?_eq_none (by simp; omega), List.getElem?_eq_none (by omega)]

variable [Engine β ε]

theorem goes_begin (h : s.Gated) (wish : Wish) (hpatient : (s.step (.begin wish)).Patient)
    : s.Goes (s.step (.begin wish)) := by
  have hown : (s.step (.begin wish)).calls[s.calls.length]? =
      some (wish, (s.world.beginWish s.calls.length wish).2) := List.getElem?_concat_length
  have hothers := fun i => getElem?_concat_ne s.calls (wish, (s.world.beginWish s.calls.length wish).2) (i := i)
  by_cases hwish : ∀ grace, wish ≠ .shutdown grace
  . have haside := World.aside_beginWish h.tidy s.calls.length hwish
    refine goes_aside h haside.1 hwish haside.2 hown hothers ?_
    simp
  . simp only [ne_eq, not_forall, not_not] at hwish
    rcases hwish with ⟨grace, rfl⟩
    refine .turns s.calls.length grace _ { s.world.service with
      closed := true, waiting := s.world.service.waiting ++ [(s.calls.length, grace)] } rfl rfl rfl ?_ hown hothers
    apply World.turned_turn
    . exact h.tidy
    . intro hleads
      rcases h.leader s.calls.length (by rw [show s.world.service.teardown = _ from hleads]; rfl) with
        ⟨grace', waiting', hcall⟩
      simp at hcall
    . intro hidle
      rw [show s.world.service.waiting = [] from h.queue (h.idle.mp hidle)]
      exact ⟨grace, [], rfl⟩
    . intro message clock hbroken
      exact (hpatient _ grace _ clock (hown.trans (by rw [← hbroken]; rfl))).2 message rfl

theorem goes_wait (h : s.Gated) {call : CallerId} {grace : Span} {waiting : Waiting}
    (hcall : s.calls[call]? = some (.shutdown grace, waiting))
    (hwhole : ∀ message clock, (s.world.advance call waiting).2 ≠ .finished (.panicked message) clock)
    : s.Goes ⟨(s.world.advance call waiting).1,
        s.calls.set call (.shutdown grace, (s.world.advance call waiting).2)⟩ := by
  have hlt : call < s.calls.length := (List.getElem?_eq_some_iff.mp hcall).1
  have hown : (s.calls.set call (.shutdown grace, (s.world.advance call waiting).2))[call]? =
      some (.shutdown grace, (s.world.advance call waiting).2) := by simp [hlt]
  have hothers : ∀ i, i ≠ call →
      (s.calls.set call (.shutdown grace, (s.world.advance call waiting).2))[i]? = s.calls[i]? :=
    fun i hne => List.getElem?_set_ne hne.symm
  have hfits := h.fits call grace waiting hcall
  cases waiting with
  | shutdown =>
    have hled : s.world.service.closed = true := by
      rw [← Bool.not_eq_false, ← h.idle]
      exact hfits.1
    refine .turns call grace _ s.world.service rfl hled rfl ?_ hown hothers
    apply World.turned_turn s.world h.tidy hfits.2 (fun hidle => absurd hidle hfits.1) hwhole
  | closing pending =>
    have hcase : s.world.service.teardown = .closing call := hfits
    have hled : s.world.service.closed = true := by
      rw [← Bool.not_eq_false, ← h.idle, hcase]
      simp
    exact .turns call grace _ s.world.service rfl hled rfl (s.world.turned_closing hcase hwhole) hown hothers
  | finished outcome clock =>
    have hsame : s.calls.set call (.shutdown grace, .finished outcome clock) = s.calls := by
      rcases List.getElem?_eq_some_iff.mp hcall with ⟨hlt, heq⟩
      rw [← heq, List.set_getElem_self]
    simp only [World.advance, hsame]
    exact .refl h
  | _ => exact hfits.elim

theorem goes_look (h : s.Gated) (call : CallerId) (hpatient : (s.step (.look call)).Patient)
    : s.Goes (s.step (.look call)) := by
  cases hcall : s.calls[call]? with
  | none =>
    simp only [step, hcall]
    exact .refl h
  | some entry =>
    rcases entry with ⟨wish, waiting⟩
    have hlt : call < s.calls.length := (List.getElem?_eq_some_iff.mp hcall).1
    have hstep : s.step (.look call) =
        ⟨(s.world.advance call waiting).1, s.calls.set call (wish, (s.world.advance call waiting).2)⟩ := by
      simp only [step, hcall]
    rw [hstep] at hpatient ⊢
    have hown : (s.calls.set call (wish, (s.world.advance call waiting).2))[call]? =
        some (wish, (s.world.advance call waiting).2) := by simp [hlt]
    by_cases hwish : ∀ grace, wish ≠ .shutdown grace
    . have haside := s.world.aside_advance call (h.aside call wish waiting hcall hwish)
      refine goes_aside h haside.1 hwish haside.2 hown (fun i hne => List.getElem?_set_ne hne.symm) ?_
      intro grace waiting' hcall'
      rw [hcall] at hcall'
      cases hcall'
      exact hwish grace rfl
    . simp only [ne_eq, not_forall, not_not] at hwish
      rcases hwish with ⟨grace, rfl⟩
      refine goes_wait h hcall fun message clock hbroken => ?_
      exact (hpatient call grace _ clock (by rw [hown, hbroken])).2 message rfl

theorem goes_giveUp (h : s.Gated) (call : CallerId) (hpatient : (s.step (.giveUp call)).Patient)
    : s.Goes (s.step (.giveUp call)) := by
  cases hcall : s.calls[call]? with
  | none =>
    simp only [step, hcall]
    exact .refl h
  | some entry =>
    rcases entry with ⟨wish, waiting⟩
    have hlt : call < s.calls.length := (List.getElem?_eq_some_iff.mp hcall).1
    by_cases hover : ∃ outcome clock, waiting = .finished outcome clock
    . rcases hover with ⟨outcome, clock, rfl⟩
      simp only [step, hcall]
      exact .refl h
    . have hstep : s.step (.giveUp call) =
          { world := { s.world with service := s.world.service.abandon call },
            calls := s.calls.set call (wish, .finished .cancelled s.world.clock) } := by
        simp only [step, hcall]
        cases waiting with
        | finished outcome clock => exact absurd ⟨outcome, clock, rfl⟩ hover
        | _ => rfl
      rw [hstep] at hpatient ⊢
      have hown : (s.calls.set call (wish, Waiting.finished .cancelled s.world.clock))[call]? =
          some (wish, .finished .cancelled s.world.clock) := by simp [hlt]
      have hwish : ∀ grace, wish ≠ .shutdown grace := by
        rintro grace rfl
        exact (hpatient call grace .cancelled s.world.clock hown).1 rfl
      have hleader : s.world.service.teardown.leader? ≠ some call := by
        intro hleads
        rcases h.leader call hleads with ⟨grace, waiting', hcall'⟩
        rw [hcall] at hcall'
        cases hcall'
        exact hwish grace rfl
      refine goes_aside h (World.retains_abandon hleader) hwish rfl hown (fun i hne => List.getElem?_set_ne hne.symm) ?_
      intro grace waiting' hcall'
      rw [hcall] at hcall'
      cases hcall'
      exact hwish grace rfl

theorem goes_step (h : s.Gated) (e : Event β) (hpatient : (s.step e).Patient) : s.Goes (s.step e) := by
  cases e with
  | begin wish => exact goes_begin h wish hpatient
  | look call => exact goes_look h call hpatient
  | giveUp call => exact goes_giveUp h call hpatient
  | turn task => exact .works (s.world.works_runTask task) rfl
  | stir backend => exact .keeps ⟨⟨[], _, rfl, id⟩, rfl, fun _ h => h⟩ (fun _ _ _ => Iff.rfl) h.aside
  | pass clock now sampler => exact .keeps ⟨⟨[], _, rfl, id⟩, rfl, fun _ h => h⟩ (fun _ _ _ => Iff.rfl) h.aside

omit [Engine β ε] in
theorem Goes.later (h : s.Goes s') : s.world.service.teardown.Later s'.world.service.teardown := by
  cases h with
  | keeps world calls aside =>
    rcases world.service with ⟨es, waiting, hservice, -⟩
    rw [hservice]
    exact .refl _
  | works world calls =>
    cases world with
    | acts e service closings results =>
      rw [service]
      exact Teardown.later_settle _ _
    | waits retains =>
      rcases retains.service with ⟨es, waiting, hservice, -⟩
      rw [hservice]
      exact .refl _
  | turns call grace waiting service teardown closed registry turned own others =>
    rw [← teardown]
    exact turned.advances.later

def Tracks (s : Session β ε) (tasks : List TaskId) : Prop :=
  ∀ t ∈ tasks, t ∈ s.world.service.teardown.pending ∨ ∃ result, (t, result) ∈ s.world.results

omit [Engine β ε] in
theorem Tracks.keeps {tasks : List TaskId} (h : s.Tracks tasks) (world : s.world.Retains s'.world) : s'.Tracks tasks := by
  intro t ht
  rcases world.service with ⟨es, waiting, hservice, -⟩
  rw [hservice]
  rcases h t ht with hpending | ⟨result, hresult⟩
  . exact .inl hpending
  . exact .inr ⟨result, world.results _ hresult⟩

omit [Engine β ε] in
theorem Tracks.goes {tasks : List TaskId} (h : s.Tracks tasks) (hled : s.world.service.teardown ≠ .idle)
    (hgoes : s.Goes s')
    : s'.Tracks tasks := by
  cases hgoes with
  | keeps world calls aside => exact h.keeps world
  | works world calls =>
    cases world with
    | waits retains => exact h.keeps retains
    | acts e service closings results =>
      intro t ht
      rw [service, results]
      rcases h t ht with hpending | ⟨result, hresult⟩
      . -- The shutdown waits for a task until it is settled.
        by_cases hsettled : ∃ result, .settled t result ∈ (s.world.service.registry.step e).2
        . rcases hsettled with ⟨result, hsettled⟩
          refine .inr ⟨result, List.mem_append_left _ ?_⟩
          rw [List.mem_reverse, List.mem_filterMap]
          exact ⟨_, hsettled, rfl⟩
        . exact .inl (Teardown.pending_settle hpending fun result hresult => hsettled ⟨result, hresult⟩)
      . exact .inr ⟨result, List.mem_append_right _ hresult⟩
  | turns call grace waiting service teardown closed registry turned own others =>
    intro t ht
    rw [← teardown] at hled
    rw [turned.advances.pending hled, teardown]
    rcases h t ht with hpending | ⟨result, hresult⟩
    . exact .inl hpending
    . exact .inr ⟨result, turned.results _ hresult⟩

theorem wish_step {call : CallerId} {wish : Wish} {waiting : Waiting} (h : s.calls[call]? = some (wish, waiting))
    (e : Event β)
    : ∃ waiting', (s.step e).calls[call]? = some (wish, waiting') := by
  have hlt : call < s.calls.length := (List.getElem?_eq_some_iff.mp h).1
  have hset : ∀ i wish' waiting₀ waiting', s.calls[i]? = some (wish', waiting₀) →
      ∃ waiting₁, (s.calls.set i (wish', waiting'))[call]? = some (wish, waiting₁) := by
    intro i wish' waiting₀ waiting' hi
    by_cases heq : i = call
    . subst heq
      rw [h] at hi
      cases hi
      exact ⟨waiting', by simp [hlt]⟩
    . exact ⟨waiting, by rw [List.getElem?_set_ne heq, h]⟩
  cases e with
  | begin wish' => exact ⟨waiting, by rw [step, List.getElem?_append_left hlt, h]⟩
  | look i =>
    cases hi : s.calls[i]? with
    | none =>
      simp only [step, hi]
      exact ⟨waiting, h⟩
    | some entry =>
      simp only [step, hi]
      exact hset i entry.1 entry.2 _ hi
  | giveUp i =>
    cases hi : s.calls[i]? with
    | none =>
      simp only [step, hi]
      exact ⟨waiting, h⟩
    | some entry =>
      rcases entry with ⟨wish', waiting'⟩
      cases waiting' with
      | finished outcome clock =>
        simp only [step, hi]
        exact ⟨waiting, h⟩
      | _ =>
        simp only [step, hi]
        exact hset i wish' _ _ hi
  | _ => exact ⟨waiting, h⟩

theorem wish_of_step {call : CallerId} {wish : Wish} {waiting : Waiting} {e : Event β}
    (h : (s.step e).calls[call]? = some (wish, waiting))
    : (∃ waiting', s.calls[call]? = some (wish, waiting')) ∨ e = .begin wish := by
  by_cases hlt : call < s.calls.length
  . rcases List.getElem?_eq_getElem hlt with hcall
    rcases hentry : s.calls[call] with ⟨wish', waiting'⟩
    rw [hentry] at hcall
    rcases wish_step hcall e with ⟨waiting'', hcall'⟩
    rw [h] at hcall'
    cases hcall'
    exact .inl ⟨waiting', hcall⟩
  . have hlength : ∀ e : Event β, (∀ wish, e ≠ .begin wish) → (s.step e).calls.length = s.calls.length := by
      intro e he
      cases e with
      | begin wish => exact absurd rfl (he wish)
      | look i =>
        simp only [step]
        split <;> simp
      | giveUp i =>
        simp only [step]
        split <;> simp
      | _ => rfl
    by_cases hbegin : ∃ wish', e = .begin wish'
    . rcases hbegin with ⟨wish', rfl⟩
      right
      rw [step, List.getElem?_append_right (Nat.le_of_not_lt hlt)] at h
      have := List.mem_of_getElem? h
      rw [List.mem_singleton] at this
      cases this
      rfl
    . have hlt' := (List.getElem?_eq_some_iff.mp h).1
      rw [hlength e fun wish' heq => hbegin ⟨wish', heq⟩] at hlt'
      exact absurd hlt' hlt

end Session

end Simulation

end BoxRegistry
