import Mathlib.Data.Nat.Find
import BoxRegistry.Proofs.Simulation.Gate

namespace BoxRegistry.Simulation

open Time (Span)

namespace Session

variable {β ε : Type} [Engine β ε] {s : Session β ε}

theorem look_of_stopped {call : CallerId} {grace : Span} (hcase : s.world.service.teardown = .stopping call [])
    (hcall : s.calls[call]? = some (.shutdown grace, .shutdown)) (hpatient : (s.step (.look call)).Patient)
    : (s.step (.look call)).world.service.teardown = .closing call ∨
      (s.step (.look call)).world.service.teardown = .done := by
  have hlt : call < s.calls.length := (List.getElem?_eq_some_iff.mp hcall).1
  have hturn : s.world.service.turn call = ({ s.world.service with teardown := .closing call }, .close, []) := by
    simp [Service.turn, hcase]
  have hstep : s.step (.look call) =
      ⟨(s.world.takeTurn call ({ s.world.service with teardown := .closing call }, .close, [])).1,
        s.calls.set call (.shutdown grace,
          (s.world.takeTurn call ({ s.world.service with teardown := .closing call }, .close, [])).2)⟩ := by
    simp only [step, hcall, World.advance, hturn]
  rw [hstep] at hpatient ⊢
  rcases s.world.seals_takeTurn call { s.world.service with teardown := .closing call } [] with ⟨hseals, -⟩
  generalize s.world.takeTurn call _ = out at hseals hpatient
  rcases out with ⟨w', waiting⟩
  cases hseals with
  | answered service => exact .inr (congrArg Service.teardown service)
  | waits service => exact .inl (congrArg Service.teardown service)
  | @breaksOff message clock =>
    have hbroken := (hpatient call grace (.panicked message) clock (by simp [hlt])).2 message
    exact absurd rfl hbroken

theorem look_of_done {call : CallerId} {grace : Span} (hcase : s.world.service.teardown = .done)
    (hcall : s.calls[call]? = some (.shutdown grace, .shutdown))
    : ∃ clock, (s.step (.look call)).calls[call]? = some (.shutdown grace, .finished .done clock) := by
  have hlt : call < s.calls.length := (List.getElem?_eq_some_iff.mp hcall).1
  have hturn : s.world.service.turn call =
      ({ s.world.service with waiting := s.world.service.waiting.filter (·.1 ≠ call) }, .done, []) := by
    simp [Service.turn, hcase]
  simp only [step, hcall, World.advance, hturn, World.takeTurn]
  exact ⟨_, by simp [hlt]; rfl⟩

theorem finished_step {call : CallerId} {wish : Wish} {outcome : Outcome} {clock : Nat}
    (h : s.calls[call]? = some (wish, .finished outcome clock)) (e : Event β)
    : (s.step e).calls[call]? = some (wish, .finished outcome clock) := by
  have hlt : call < s.calls.length := (List.getElem?_eq_some_iff.mp h).1
  cases e with
  | begin wish' => rw [step, List.getElem?_append_left hlt, h]
  | look i =>
    by_cases heq : i = call
    . subst heq
      simp only [step, h, World.advance]
      exact List.getElem?_set_self hlt
    . simp only [step]
      split
      . exact h
      . rw [List.getElem?_set_ne heq, h]
  | giveUp i =>
    by_cases heq : i = call
    . subst heq
      simp only [step, h]
    . simp only [step]
      split
      . exact h
      . exact h
      . rw [List.getElem?_set_ne heq, h]
  | _ => exact h

theorem look_of_finished (h : ∀ entry ∈ s.calls, ∃ outcome clock, entry.2 = .finished outcome clock) (call : CallerId)
    : s.step (.look call) = s := by
  cases hcall : s.calls[call]? with
  | none => simp only [step, hcall]
  | some entry =>
    rcases entry with ⟨wish, waiting⟩
    rcases h _ (List.mem_of_getElem? hcall) with ⟨outcome, clock, hfinished⟩
    obtain rfl : waiting = .finished outcome clock := hfinished
    have hsame : s.calls.set call (wish, .finished outcome clock) = s.calls := by
      rcases List.getElem?_eq_some_iff.mp hcall with ⟨hlt, heq⟩
      rw [← heq, List.set_getElem_self]
    simp only [step, hcall, World.advance, hsame]

section Run

variable {events : Nat → Event β} {n m : Nat} {call : CallerId} {grace : Span} {waiting : Waiting}

theorem wish_run {wish : Wish} (h : (s.run events n).calls[call]? = some (wish, waiting)) (hle : n ≤ m)
    : ∃ waiting', (s.run events m).calls[call]? = some (wish, waiting') := by
  induction hle with
  | refl => exact ⟨waiting, h⟩
  | step _ ih =>
    rcases ih with ⟨waiting', hcall⟩
    exact wish_step hcall _

theorem begun_of_run (hnone : s.calls = []) {wish : Wish}
    (h : (s.run events n).calls[call]? = some (wish, waiting))
    : ∃ m, m < n ∧ events m = .begin wish := by
  induction n generalizing waiting with
  | zero =>
    rw [run, hnone] at h
    cases h
  | succ n ih =>
    rcases wish_of_step h with ⟨waiting', hcall⟩ | hbegin
    . rcases ih hcall with ⟨m, hm, hevent⟩
      exact ⟨m, Nat.lt_succ_of_lt hm, hevent⟩
    . exact ⟨n, Nat.lt_succ_self n, hbegin⟩

theorem finished_run {wish : Wish} {outcome : Outcome} {clock : Nat}
    (h : (s.run events n).calls[call]? = some (wish, .finished outcome clock)) (hle : n ≤ m)
    : (s.run events m).calls[call]? = some (wish, .finished outcome clock) := by
  induction hle with
  | refl => exact h
  | step _ ih => exact finished_step ih _

theorem patient_of_run (h : (s.run events m).Patient) (hle : n ≤ m) : (s.run events n).Patient :=
  fun call grace outcome clock hcall => h call grace outcome clock (finished_run hcall hle)

/--
Everything that a shutdown waits for comes in the end: each caller looks again, each stop comes to an end, and the
backend replies.
-/
structure Fair (s : Session β ε) (events : Nat → Event β) : Prop where
  looks : ∀ n call, call < (s.run events n).calls.length → ∃ m, n ≤ m ∧ events m = .look call
  stops : ∀ n, ∀ t ∈ (s.run events n).world.service.teardown.pending,
    ∃ m, n ≤ m ∧ t ∉ (s.run events m).world.service.teardown.pending
  replies : ∀ n (call : CallerId) (wish : Wish) (pending : Pending),
    (s.run events n).calls[call]? = some (wish, .closing pending) →
      ∃ m, n ≤ m ∧ ∀ pending', (s.run events m).calls[call]? ≠ some (wish, .closing pending')

variable (hgated : s.Gated) (hpatient : ∀ n, (s.run events n).Patient)
include hgated hpatient

theorem gated_run (n : Nat) : (s.run events n).Gated := by
  induction n with
  | zero => exact hgated
  | succ n ih => exact ih.goes (goes_step ih (events n) (hpatient (n + 1)))

theorem goes_run (n : Nat) : (s.run events n).Goes (s.run events (n + 1)) :=
  goes_step (gated_run hgated hpatient n) (events n) (hpatient (n + 1))

theorem later_run (hle : n ≤ m)
    : (s.run events n).world.service.teardown.Later (s.run events m).world.service.teardown := by
  induction hle with
  | refl => exact .refl _
  | step _ ih => exact ih.trans (goes_run hgated hpatient _).later

theorem tracks_run {tasks : List TaskId} (h : (s.run events n).Tracks tasks)
    (hled : (s.run events n).world.service.teardown ≠ .idle) (hle : n ≤ m)
    : (s.run events m).Tracks tasks := by
  induction hle with
  | refl => exact h
  | step hle ih => exact ih.goes ((later_run hgated hpatient hle).led hled) (goes_run hgated hpatient _)

theorem fits_run (h : (s.run events n).calls[call]? = some (.shutdown grace, waiting)) (hle : n ≤ m)
    : ∃ waiting', (s.run events m).calls[call]? = some (.shutdown grace, waiting') ∧
        waiting'.Fits call (s.run events m).world.service.teardown := by
  rcases wish_run h hle with ⟨waiting', hcall⟩
  exact ⟨waiting', hcall, (gated_run hgated hpatient m).fits call grace waiting' hcall⟩

theorem closed_iff_led (n : Nat)
    : (s.run events n).world.service.closed = true ↔ (s.run events n).world.service.teardown ≠ .idle := by
  rw [ne_eq, (gated_run hgated hpatient n).idle, Bool.not_eq_false]

theorem idle_of_uncalled (hnone : s.calls = []) (huncalled : ∀ m, m < n → ∀ grace, events m ≠ .begin (.shutdown grace))
    : (s.run events n).world.service.teardown = .idle := by
  by_contra hled
  rcases (gated_run hgated hpatient n).called ((closed_iff_led hgated hpatient n).mpr hled) with
    ⟨call, grace, waiting, hcall⟩
  rcases begun_of_run hnone hcall with ⟨m, hm, hevent⟩
  exact huncalled m hm grace hevent

theorem led_of_shutdown (h : (s.run events n).calls[call]? = some (.shutdown grace, waiting))
    : (s.run events n).world.service.teardown ≠ .idle :=
  Waiting.led_of_fits ((gated_run hgated hpatient n).fits call grace waiting h)

theorem led_of_called (hbegin : events n = .begin (.shutdown grace)) (hlt : n < m)
    : (s.run events m).world.service.teardown ≠ .idle := by
  have hown : (s.run events (n + 1)).calls[(s.run events n).calls.length]? = some (.shutdown grace,
      ((s.run events n).world.beginWish (s.run events n).calls.length (.shutdown grace)).2) := by
    rw [run, hbegin]
    exact List.getElem?_concat_length
  rcases wish_run hown hlt with ⟨waiting, hcall⟩
  exact led_of_shutdown hgated hpatient hcall

theorem closings_le (n : Nat) : (s.run events n).world.closings ≤ 1 := by
  rw [(gated_run hgated hpatient n).closings]
  cases (s.run events n).world.service.teardown <;> simp [Teardown.closings]

theorem settled_of_closings {tasks : List TaskId} (h : (s.run events n).Tracks tasks)
    (hone : (s.run events n).world.closings = 1)
    : ∀ t ∈ tasks, ∃ result, (t, result) ∈ (s.run events n).world.results := by
  intro t ht
  have hnone : (s.run events n).world.service.teardown.pending = [] := by
    rw [(gated_run hgated hpatient n).closings] at hone
    cases hcase : (s.run events n).world.service.teardown <;> simp_all [Teardown.closings, Teardown.pending]
  rcases h t ht with hmem | hresult
  . rw [hnone] at hmem
    cases hmem
  . exact hresult

section Fair

variable (hfair : s.Fair events)
include hfair

-- The stops come to an end one after the other.
theorem exists_stopped {leader : CallerId} {pending : List TaskId}
    (h : (s.run events n).world.service.teardown = .stopping leader pending)
    : ∃ m, n ≤ m ∧ ((s.run events m).world.service.teardown = .stopping leader [] ∨
        (s.run events m).world.service.teardown = .closing leader ∨
        (s.run events m).world.service.teardown = .done) := by
  induction hlength : pending.length using Nat.strongRecOn generalizing n pending with
  | _ length ih =>
    cases pending with
    | nil => exact ⟨n, Nat.le_refl n, .inl h⟩
    | cons t rest =>
      rcases hfair.stops n t (by rw [h]; exact List.mem_cons_self) with ⟨m, hle, hover⟩
      have hlater := later_run hgated hpatient hle
      rw [h] at hlater
      generalize hcase : (s.run events m).world.service.teardown = teardown at hlater hover
      cases hlater with
      | @stops _ _ pending' fewer =>
        have hshorter : pending'.length < length := by
          rw [← hlength]
          apply Nat.lt_of_le_of_ne fewer.length_le
          intro heq
          rw [fewer.eq_of_length heq] at hover
          exact hover List.mem_cons_self
        rcases ih pending'.length hshorter hcase rfl with ⟨k, hk, hstopped⟩
        exact ⟨k, Nat.le_trans hle hk, hstopped⟩
      | asks => exact ⟨m, hle, .inr (.inl hcase)⟩
      | closes => exact ⟨m, hle, .inr (.inr hcase)⟩

theorem exists_closing {leader : CallerId} (h : (s.run events n).world.service.teardown = .stopping leader [])
    : ∃ m, n ≤ m ∧ ((s.run events m).world.service.teardown = .closing leader ∨
        (s.run events m).world.service.teardown = .done) := by
  rcases (gated_run hgated hpatient n).leader leader (by rw [h]; rfl) with ⟨grace, waiting, hcall⟩
  rcases hfair.looks n leader (List.getElem?_eq_some_iff.mp hcall).1 with ⟨m, hle, hlooks⟩
  rcases fits_run hgated hpatient hcall hle with ⟨waiting', hcall', hfits⟩
  have hlater := later_run hgated hpatient hle
  rw [h] at hlater
  generalize hcase : (s.run events m).world.service.teardown = teardown at hlater hfits
  cases hlater with
  | asks => exact ⟨m, hle, .inl hcase⟩
  | closes => exact ⟨m, hle, .inr hcase⟩
  | stops fewer =>
    rw [List.sublist_nil.mp fewer] at hcase hfits
    obtain rfl := Waiting.eq_shutdown_of_fits hfits
    refine ⟨m + 1, Nat.le_succ_of_le hle, ?_⟩
    have hlast := hpatient (m + 1)
    rw [run, hlooks] at hlast ⊢
    exact look_of_stopped hcase hcall' hlast

theorem exists_done {leader : CallerId} (h : (s.run events n).world.service.teardown = .closing leader)
    : ∃ m, n ≤ m ∧ (s.run events m).world.service.teardown = .done := by
  have hgatedₙ := gated_run hgated hpatient n
  rcases hgatedₙ.leader leader (by rw [h]; rfl) with ⟨grace, waiting, hcall⟩
  have hfits := hgatedₙ.fits leader grace waiting hcall
  rw [h] at hfits
  rcases Waiting.exists_pending_of_fits hfits with ⟨pending, rfl⟩
  rcases hfair.replies n leader _ pending hcall with ⟨m, hle, hreplied⟩
  rcases fits_run hgated hpatient hcall hle with ⟨waiting', hcall', hfits'⟩
  have hlater := later_run hgated hpatient hle
  rw [h] at hlater
  generalize hcase : (s.run events m).world.service.teardown = teardown at hlater hfits'
  cases hlater with
  | ends => exact ⟨m, hle, hcase⟩
  | stays =>
    rcases Waiting.exists_pending_of_fits hfits' with ⟨pending', rfl⟩
    exact absurd hcall' (hreplied pending')

theorem done_of_led (hled : (s.run events n).world.service.teardown ≠ .idle)
    : ∃ m, n ≤ m ∧ (s.run events m).world.service.teardown = .done := by
  have hclosing : ∀ k leader, n ≤ k → (s.run events k).world.service.teardown = .closing leader →
      ∃ m, n ≤ m ∧ (s.run events m).world.service.teardown = .done := by
    intro k leader hk hcase
    rcases exists_done hgated hpatient hfair hcase with ⟨m, hm, hdone⟩
    exact ⟨m, Nat.le_trans hk hm, hdone⟩
  have hstopped : ∀ k leader, n ≤ k → (s.run events k).world.service.teardown = .stopping leader [] →
      ∃ m, n ≤ m ∧ (s.run events m).world.service.teardown = .done := by
    intro k leader hk hcase
    rcases exists_closing hgated hpatient hfair hcase with ⟨m, hm, hasks | hdone⟩
    . exact hclosing m leader (Nat.le_trans hk hm) hasks
    . exact ⟨m, Nat.le_trans hk hm, hdone⟩
  cases hcase : (s.run events n).world.service.teardown with
  | idle => exact absurd hcase hled
  | done => exact ⟨n, Nat.le_refl n, hcase⟩
  | closing leader => exact hclosing n leader (Nat.le_refl n) hcase
  | stopping leader pending =>
    rcases exists_stopped hgated hpatient hfair hcase with ⟨m, hm, hall | hasks | hdone⟩
    . exact hstopped m leader hm hall
    . exact hclosing m leader hm hasks
    . exact ⟨m, hm, hdone⟩

theorem exists_finished (h : (s.run events n).calls[call]? = some (.shutdown grace, waiting))
    : ∃ m clock, n ≤ m ∧ (s.run events m).calls[call]? = some (.shutdown grace, .finished .done clock) := by
  have hled := led_of_shutdown hgated hpatient h
  rcases done_of_led hgated hpatient hfair hled with ⟨m, hm, hdone⟩
  rcases hfair.looks m call (List.getElem?_eq_some_iff.mp (wish_run h hm).choose_spec).1 with ⟨k, hk, hlooks⟩
  rcases fits_run hgated hpatient h (Nat.le_trans hm hk) with ⟨waiting', hcall, hfits⟩
  have hdone' : (s.run events k).world.service.teardown = .done := by
    have hlater := later_run hgated hpatient hk
    rw [hdone] at hlater
    generalize (s.run events k).world.service.teardown = teardown at hlater
    cases hlater
    rfl
  rw [hdone'] at hfits
  cases waiting' with
  | shutdown =>
    rcases look_of_done hdone' hcall with ⟨clock, hfinished⟩
    refine ⟨k + 1, clock, by omega, ?_⟩
    rw [run, hlooks]
    exact hfinished
  | closing pending => exact absurd hfits (by simp [Waiting.Fits])
  | finished outcome clock =>
    obtain rfl := hfits.1
    exact ⟨k, clock, Nat.le_trans hm hk, hcall⟩
  | _ => exact hfits.elim

end Fair

end Run

theorem collects_begin (h : s.Gated) (hidle : s.world.service.teardown = .idle) (grace : Span)
    (hpatient : (s.step (.begin (.shutdown grace))).Patient)
    : (s.step (.begin (.shutdown grace))).world.service.registry =
        (Service.stopAll s.world.service.registry grace).2.1 ∧
      (s.step (.begin (.shutdown grace))).world.service.teardown.pending =
        (Service.stopAll s.world.service.registry grace).1 := by
  have hwaiting : s.world.service.waiting = [] := h.queue (h.idle.mp hidle)
  have hown : (s.step (.begin (.shutdown grace))).calls[s.calls.length]? =
      some (.shutdown grace, (s.world.beginWish s.calls.length (.shutdown grace)).2) := List.getElem?_concat_length
  have hcollects := s.world.collects_turn (s := { s.world.service with
    closed := true, waiting := s.world.service.waiting ++ [(s.calls.length, grace)] }) hidle (by rw [hwaiting]; rfl)
    fun message clock hbroken => (hpatient _ grace _ clock (hown.trans (by rw [← hbroken]; rfl))).2 message rfl
  exact hcollects

section Collect

variable {events : Nat → Event β} {first n : Nat} {grace : Span} (hgated : s.Gated)
  (hpatient : ∀ n, (s.run events n).Patient) (hfirst : events first = .begin (.shutdown grace))
  (hidle : ∀ n, n ≤ first → (s.run events n).world.service.teardown = .idle)
include hgated hpatient hfirst hidle

theorem collects_run
    : let stops := Service.stopAll (s.run events first).world.service.registry grace
      (s.run events (first + 1)).world.service.registry = stops.2.1 ∧
        (s.run events (first + 1)).world.service.teardown.pending = stops.1 := by
  have hnext : s.run events (first + 1) = (s.run events first).step (.begin (.shutdown grace)) := by
    rw [← hfirst]
    rfl
  rw [hnext]
  exact collects_begin (gated_run hgated hpatient first) (hidle first (Nat.le_refl first)) grace
    (hnext ▸ hpatient (first + 1))

theorem begun_of_collected
    : ∀ slot ∈ (s.run events first).world.service.registry.active,
      ∃ t ∈ (Service.stopAll (s.run events first).world.service.registry grace).1,
        (s.run events (first + 1)).world.service.registry.task? t = some ⟨slot, .enter (.stop grace)⟩ := by
  rw [(collects_run hgated hpatient hfirst hidle).1]
  exact (Registry.beginAll_spec (gated_run hgated hpatient first).tidy (.stop grace) fun _ hslot =>
    Registry.lt_of_mem_active hslot).tasks

theorem settled_of_collected (hone : (s.run events n).world.closings = 1)
    : first < n ∧ ∀ t ∈ (Service.stopAll (s.run events first).world.service.registry grace).1,
      ∃ result, (t, result) ∈ (s.run events n).world.results := by
  have hlt : first < n := by
    by_contra hle
    rw [(gated_run hgated hpatient n).closings, hidle n (Nat.le_of_not_lt hle)] at hone
    cases hone
  refine ⟨hlt, ?_⟩
  have htracks : (s.run events (first + 1)).Tracks
      (Service.stopAll (s.run events first).world.service.registry grace).1 := by
    intro t ht
    rw [(collects_run hgated hpatient hfirst hidle).2]
    exact .inl ht
  have hled := led_of_called hgated hpatient hfirst (Nat.lt_succ_self first)
  exact settled_of_closings hgated hpatient (tracks_run hgated hpatient htracks hled hlt) hone

end Collect

section Farewell

/--
A box runs. Two callers call for a shutdown at once, and a third asks for the box.
-/
def farewell : List (Event Backend) :=
  [.begin (.create { image := "alpine" } none), .begin (.operate (.ofBox 0 .full) .start), .turn 0, .turn 0, .turn 1,
    .look 1, .begin (.shutdown (.ofMillis 1000)), .begin (.shutdown (.ofMillis 1)), .begin (.get (.ofBox 0 .full)),
    .turn 2, .turn 2, .turn 2, .look 3, .look 2, .look 3]

def farewells (n : Nat) : Event Backend :=
  farewell.getD n (.look (n % 5))

def parted : Nat → Session Backend Simulation.Event :=
  (start {} {}).run farewells

theorem calls_parted : (parted 15).calls.all (fun entry => match entry.2 with
    | .finished .cancelled _ | .finished (.panicked _) _ => false
    | .finished .. => true
    | _ => false) = true := rfl

theorem finished_parted : ∀ entry ∈ (parted 15).calls, ∃ outcome clock, entry.2 = .finished outcome clock ∧
    outcome ≠ .cancelled ∧ ∀ message, outcome ≠ .panicked message := by
  intro entry hentry
  have hfinished := List.all_eq_true.mp calls_parted entry hentry
  rcases entry with ⟨wish, waiting⟩
  cases waiting with
  | finished outcome clock =>
    refine ⟨outcome, clock, rfl, ?_⟩
    cases outcome <;> simp_all
  | _ => cases hfinished

theorem farewells_of_le {n : Nat} (hle : 15 ≤ n) : farewells n = .look (n % 5) := by
  have hover : farewell[n]? = none := List.getElem?_eq_none hle
  simp [farewells, hover]

theorem parted_of_le {n : Nat} (hle : 15 ≤ n) : parted n = parted 15 := by
  induction hle with
  | refl => rfl
  | @step n hle ih =>
    change (parted n).step (farewells n) = _
    rw [ih, farewells_of_le hle]
    apply look_of_finished
    intro entry hentry
    rcases finished_parted entry hentry with ⟨outcome, clock, hfinished, -⟩
    exact ⟨outcome, clock, hfinished⟩

theorem patient_parted (n : Nat) : (parted n).Patient := by
  have hlast : (parted (max n 15)).Patient := by
    rw [parted_of_le (Nat.le_max_right n 15)]
    intro call grace outcome clock hcall
    rcases finished_parted _ (List.mem_of_getElem? hcall) with ⟨outcome', clock', hfinished, hdone⟩
    cases hfinished
    exact hdone
  exact patient_of_run hlast (Nat.le_max_left n 15)

theorem fair_parted : (start {} {} : Session Backend Simulation.Event).Fair farewells := by
  have hlast : ∀ n, (start {} {} : Session Backend Simulation.Event).run farewells (max n 15) = parted 15 :=
    fun n => parted_of_le (Nat.le_max_right n 15)
  constructor
  . intro n call hlt
    have hfew : call < 5 := by
      rcases wish_run (List.getElem?_eq_getElem hlt) (Nat.le_max_left n 15) with ⟨waiting, hcall⟩
      rw [hlast] at hcall
      exact (List.getElem?_eq_some_iff.mp hcall).1
    refine ⟨5 * (n + 3) + call, by omega, ?_⟩
    rw [farewells_of_le (by omega), show (5 * (n + 3) + call) % 5 = call by omega]
  . intro n t _
    refine ⟨max n 15, Nat.le_max_left n 15, ?_⟩
    rw [hlast, show (parted 15).world.service.teardown.pending = [] from rfl]
    exact List.not_mem_nil
  . intro n call wish pending _
    refine ⟨max n 15, Nat.le_max_left n 15, ?_⟩
    intro pending' hcall
    rw [hlast] at hcall
    rcases finished_parted _ (List.mem_of_getElem? hcall) with ⟨outcome, clock, hfinished, -⟩
    cases hfinished

end Farewell

end Session

end BoxRegistry.Simulation
