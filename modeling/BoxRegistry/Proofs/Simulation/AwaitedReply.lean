import BoxRegistry.Proofs.Simulation.SingleCaller

/-!
This module contains what a world does while one task waits for the reply to a call and all other tasks wait for
processes that do not end. Nobody else has a turn until the reply is there, so the reply and the time at which it comes
depend on nothing but the call, its deadline and the backend.
-/

namespace BoxRegistry.Simulation

namespace Backend

variable {b : Backend}

theorem awaited_of_alive (h : b.Tidy) {pid : Pid} (halive : b.isAlive pid = true) : b.awaited pid = .awaiting pid := by
  rcases (isAlive_iff h).mp halive with ⟨p, hmem, hpid, hlost, hending⟩
  rw [awaited, find?_eq_some_of_mem h hmem hpid]
  simp [hending, hlost]

theorem begin_of_plain {b : Backend} (h : b.scripts = []) (clock : Nat) (call : Call)
    : b.begin clock (.call call) = (b.noteErrand (.call call), .held (.call call) .pass clock) := by
  have hscripts : (b.noteErrand (.call call)).scripts = [] := by rw [(b.same_noteErrand _).scripts, h]
  simp [begin, hscripts]

/--
What is heard of a call that is begun at a time, with a deadline if there is one: the backend then, the reply and the
time of the reply. It is looked at once, and again when it falls due or when its deadline has come; the number counts the
looks and the moves of the clock.
-/
inductive Hears (b : Backend) (deadline : Option Nat) (out : Backend × Reply × Nat) : Nat → Nat → Pending → Prop where
  | replied {clock : Nat} {p : Pending} (poll : b.poll clock p = (out.1, .replied out.2.1)) (time : out.2.2 = clock) :
    Hears b deadline out 1 clock p
  | late {clock : Nat} {p p' : Pending} (poll : b.poll clock p = (b, p')) (stands : ∀ reply, p' ≠ .replied reply)
    (expired : deadline.any (fun due => due ≤ clock) = true) (time : out = (b, .late, clock)) :
    Hears b deadline out 1 clock p
  | later {n clock clock' : Nat} {p p' : Pending} (poll : b.poll clock p = (b, p'))
    (stands : ∀ reply, p' ≠ .replied reply) (soon : deadline.any (fun due => due ≤ clock) = false)
    (next : ((p'.due?.toList ++ deadline.toList).filter fun due => clock < due).min? = some clock') :
    Hears b deadline out n clock' p' → Hears b deadline out (n + 2) clock p

end Backend

structure Flight.Dozes (b : Backend) (f : Flight) : Prop where
  deadline : f.deadline = none
  awaits : ∃ pid, f.pending = .awaiting pid ∧ b.isAlive pid = true

namespace Flight.Dozes

variable {b b' : Backend} {f : Flight}

theorem timers (h : f.Dozes b) : f.timers = [] := by
  rcases h.awaits with ⟨pid, hpending, -⟩
  simp [Flight.timers, h.deadline, hpending, Pending.due?]

theorem isOver (h : f.Dozes b) (hb : b.Tidy) : Engine.isOver b f.pending = false := by
  rcases h.awaits with ⟨pid, hpending, halive⟩
  change b.isOver f.pending = false
  simp [hpending, Backend.isOver, Backend.awaited_of_alive hb halive]

theorem same (h : f.Dozes b) (hsame : b.Same b') : f.Dozes b' where
  deadline := h.deadline
  awaits := by
    rcases h.awaits with ⟨pid, hpending, halive⟩
    exact ⟨pid, hpending, by rw [hsame.isAlive, halive]⟩

end Flight.Dozes

namespace World

variable {w w' : World Backend Event} {t : TaskId} {f : Flight}

theorem noticing_eq {change : World Backend Event → World Backend Event}
    (h : ∀ f ∈ (change w).flights,
      Engine.isOver w.backend f.pending = true ∨ Engine.isOver (change w).backend f.pending = false)
    : w.noticing change = change w := by
  have hnone : (change w).flights.filter
      (fun f => !Engine.isOver w.backend f.pending && Engine.isOver (change w).backend f.pending) = [] := by
    rw [List.filter_eq_nil_iff]
    intro f hf
    rcases h f hf with hbefore | hafter
    . simp [hbefore]
    . simp [hafter]
  unfold noticing
  dsimp only
  rw [hnone]
  rfl

section Update

theorem flights_perform (hscripts : w.backend.scripts = []) (previous : Option Timer) (effect : Effect) {g : Flight}
    (hg : g ∈ (w.perform previous effect).flights)
    : g ∈ w.flights ∨ ∃ call, g.pending = .held (.call call) .pass w.clock := by
  cases effect with
  | call task call bound =>
    simp only [perform, startCall, Engine.begin, Backend.begin_of_plain hscripts, List.mem_append,
      List.mem_singleton] at hg
    rcases hg with hg | rfl
    . exact .inl hg
    . exact .inr ⟨call, rfl⟩
  | release pid => exact .inl hg
  | wake task =>
    simp only [perform, enqueue] at hg
    split at hg <;> exact .inl hg
  | settled task result => exact .inl hg

theorem flights_foldl (hscripts : w.backend.scripts = []) (previous : Option Timer) (effects : List Effect) {g : Flight}
    (hg : g ∈ (effects.foldl (perform previous) w).flights)
    : g ∈ w.flights ∨ ∃ call, g.pending = .held (.call call) .pass w.clock := by
  induction effects generalizing w with
  | nil => exact .inl hg
  | cons effect effects ih =>
    have hperformed := performed_perform hscripts previous effect
    rcases ih (by rw [hperformed.backend.scripts, hscripts]) hg with hold | ⟨call, hcall⟩
    . exact flights_perform hscripts previous effect hold
    . exact .inr ⟨call, by rw [hcall, hperformed.clock]⟩

theorem flights_update (hscripts : w.backend.scripts = []) (change : Service × List Effect) (previous : Option Timer)
    {g : Flight} (hg : g ∈ (w.update change previous).flights)
    : g ∈ w.flights ∨ ∃ call, g.pending = .held (.call call) .pass w.clock :=
  flights_foldl (w := { w with service := change.1 }) hscripts previous change.2 (List.mem_filter.mp hg).1

theorem noticing_update {b : Backend} (hb : b.Tidy) {change : World Backend Event → World Backend Event}
    {w' : World Backend Event} {effects : Service × List Effect} {previous : Option Timer}
    (hchange : change w = w'.update effects previous) (hbackend : w'.backend = b)
    (hdozes : ∀ g ∈ w'.flights, g.Dozes b)
    : w.noticing change = w'.update effects previous := by
  have hscripts : w'.backend.scripts = [] := by rw [hbackend, hb.scripts]
  have hupdated := updated_update hscripts effects previous
  rw [noticing_eq, hchange]
  rw [hchange]
  intro g hg
  right
  rcases flights_update hscripts effects previous hg with hold | ⟨call, hcall⟩
  . have hsame : b.Same (w'.update effects previous).backend := by
      rw [← hbackend]
      exact hupdated.backend
    exact ((hdozes g hold).same hsame).isOver (hsame.tidy hb)
  . rw [hcall]
    rfl

end Update

structure Engaged (w : World Backend Event) (t : TaskId) (f : Flight) : Prop where
  agenda : w.agenda = []
  flight : f ∈ w.flights
  task : f.task = t
  single : ∀ g ∈ w.flights, g.task = t → g = f
  dozes : ∀ g ∈ w.flights, g.task ≠ t → g.Dozes w.backend
  pending : w.results.lookup t = none

namespace Engaged

theorem find? (h : w.Engaged t f) : w.flights.find? (fun g => g.task = t) = some f := by
  apply find?_eq_some_of_unique h.flight
  . simpa using h.task
  . intro g hg htask
    exact h.single g hg (of_decide_eq_true htask)

theorem mem_timers (h : w.Engaged t f) {timer : Timer} {job : Job Event}
    : (timer, job) ∈ w.timers ↔ timer ∈ f.timers ∧ job = .task t := by
  simp only [World.timers, h.agenda, List.map_nil, List.append_nil, List.mem_flatMap, List.mem_map, Prod.mk.injEq]
  constructor
  . rintro ⟨g, hg, timer, htimer, rfl, rfl⟩
    by_cases htask : g.task = t
    . rw [← h.single g hg htask, htask]
      exact ⟨htimer, rfl⟩
    . rw [(h.dozes g hg htask).timers] at htimer
      cases htimer
  . rintro ⟨htimer, rfl⟩
    exact ⟨f, h.flight, timer, htimer, rfl, by rw [h.task]⟩

end Engaged

theorem dues_timers (f : Flight)
    : f.timers.map Timer.due = f.pending.due?.toList ++ (f.deadline.map Timer.due).toList := by
  rcases f with ⟨task, pending, serial, deadline⟩
  cases hdue : pending.due? <;> cases deadline <;> simp [Flight.timers, hdue]

theorem foldl_enqueue_lined (jobs : List (Job Event)) (hjobs : ∀ job ∈ jobs, job = .task t)
    (hready : w.ready = [.task t])
    : jobs.foldl enqueue w = w := by
  induction jobs with
  | nil => rfl
  | cons job jobs ih =>
    have henqueue : w.enqueue job = w := by
      rw [hjobs job List.mem_cons_self]
      simp [enqueue, hready, Job.isTurnOf]
    rw [List.foldl_cons, henqueue]
    exact ih fun job hjob => hjobs job (List.mem_cons_of_mem _ hjob)

theorem foldl_enqueue_idle (jobs : List (Job Event)) (hjobs : ∀ job ∈ jobs, job = .task t) (hne : jobs ≠ [])
    (hready : w.ready = [])
    : jobs.foldl enqueue w = { w with ready := [.task t] } := by
  cases jobs with
  | nil => exact absurd rfl hne
  | cons job jobs =>
    have henqueue : w.enqueue job = { w with ready := [.task t] } := by
      rw [hjobs job List.mem_cons_self]
      simp [enqueue, hready]
    rw [List.foldl_cons, henqueue]
    exact foldl_enqueue_lined jobs (fun job hjob => hjobs job (List.mem_cons_of_mem _ hjob)) rfl

theorem Engaged.moveTo (h : w.Engaged t f) (hready : w.ready = []) {clock : Nat}
    (hclock : clock ∈ f.timers.map Timer.due)
    : w.moveTo clock = { w with clock, ready := [.task t] } := by
  rcases List.mem_map.mp hclock with ⟨timer, htimer, rfl⟩
  have hstill : ({ w with clock := timer.due, agenda := w.agenda.filter fun (t, _) => timer.due < t.due } :
      World Backend Event).noticing (fun w => { w with backend := Engine.moveTo w.backend timer.due }) =
      { w with clock := timer.due } := by
    rw [noticing_eq]
    . simp [h.agenda, Engine.moveTo]
    . intro g _
      change Engine.isOver w.backend g.pending = true ∨ Engine.isOver w.backend g.pending = false
      cases Engine.isOver w.backend g.pending <;> simp
  unfold World.moveTo
  dsimp only
  rw [hstill]
  apply foldl_enqueue_idle (w := { w with clock := timer.due }) _ _ _ hready
  . intro job hjob
    simp only [List.mem_map, List.mem_mergeSort, List.mem_filter] at hjob
    rcases hjob with ⟨⟨timer', job'⟩, ⟨hmem, -⟩, rfl⟩
    exact (h.mem_timers.mp hmem).2
  . intro hnone
    have hmem : (timer, Job.task t) ∈ w.timers := h.mem_timers.mpr ⟨htimer, rfl⟩
    have hnil : (w.timers.filter fun (t, _) => t.due ≤ timer.due) = [] := by
      rw [List.map_eq_nil_iff] at hnone
      simpa using congrArg List.length hnone
    rw [List.filter_eq_nil_iff] at hnil
    simpa using hnil _ hmem

theorem Engaged.min?_dues (h : w.Engaged t f) {clock : Nat}
    (hnext : ((f.pending.due?.toList ++ (f.deadline.map Timer.due).toList).filter fun due => w.clock < due).min? =
      some clock)
    : (w.dues.filter fun due => w.clock < due).min? = some clock := by
  have hdues : ∀ due, due ∈ w.dues ↔ due ∈ f.timers.map Timer.due := by
    intro due
    simp only [dues, Engine.due?, Option.toList_none, List.append_nil, List.mem_map, Prod.exists]
    constructor
    . rintro ⟨timer, job, hmem, rfl⟩
      exact ⟨timer, (h.mem_timers.mp hmem).1, rfl⟩
    . rintro ⟨timer, hmem, rfl⟩
      exact ⟨timer, .task t, h.mem_timers.mpr ⟨hmem, rfl⟩, rfl⟩
  rw [← dues_timers] at hnext
  rw [List.min?_eq_some_iff] at hnext ⊢
  simp only [List.mem_filter, hdues] at hnext ⊢
  exact hnext

theorem Engaged.runJob_stands (h : w.Engaged t f) {p : Pending}
    (hpoll : w.backend.poll w.clock f.pending = (w.backend, p)) (hstands : ∀ reply, p ≠ .replied reply)
    (hsoon : f.deadline.any (fun d => d.due ≤ w.clock) = false)
    : ∃ serial serial', ({ w with ready := [] } : World Backend Event).runJob (.task t) =
        { w with
          ready := [], serial, flights := w.flights.filter (fun g => g.task ≠ t) ++
            [{ f with pending := p, serial := serial' }] } := by
  have hrun : ({ w with ready := [] } : World Backend Event).runTask t =
      { w with
        ready := [], serial := w.serial + 1,
        flights := w.flights.filter (fun g => g.task ≠ t) ++
          [{ f with pending := p, serial := if p = f.pending then f.serial else w.serial }] } := by
    unfold runTask
    rw [show ({ w with ready := [] } : World Backend Event).flights = w.flights from rfl, h.find?]
    dsimp only
    rw [show Engine.poll w.backend w.clock f.pending = (w.backend, p) from hpoll]
    cases p with
    | replied reply => exact absurd rfl (hstands reply)
    | _ => simp [hsoon]
  refine ⟨w.serial + 1, if p = f.pending then f.serial else w.serial, ?_⟩
  rw [← hrun]
  unfold runJob
  apply noticing_eq
  rw [hrun]
  intro g _
  change Engine.isOver w.backend g.pending = true ∨ Engine.isOver w.backend g.pending = false
  cases Engine.isOver w.backend g.pending <;> simp

theorem Engaged.wait (h : w.Engaged t f) {f' : Flight} (htask : f'.task = t) {serial : Nat} {ready : List (Job Event)}
    : ({ w with ready, serial, flights := w.flights.filter (fun g => g.task ≠ t) ++ [f'] } :
        World Backend Event).Engaged t f' where
  agenda := h.agenda
  flight := List.mem_append_right _ (List.mem_singleton_self f')
  task := htask
  single g hg heq := by
    rw [List.mem_append, List.mem_singleton] at hg
    rcases hg with hg | rfl
    . exact absurd heq (by simpa using (List.mem_filter.mp hg).2)
    . rfl
  dozes g hg hne := by
    rw [List.mem_append, List.mem_singleton] at hg
    rcases hg with hg | rfl
    . exact h.dozes g (List.mem_filter.mp hg).1 hne
    . exact absurd htask hne
  pending := h.pending

def hearing (w : World Backend Event) (t : TaskId) (deadline : Option Timer) (serial : Nat)
    (out : Backend × Reply × Nat) : World Backend Event :=
  { w with
    clock := out.2.2, serial, ready := [], backend := out.1,
    flights := w.flights.filter fun g => g.task ≠ t }.update (w.service.answer w.now t out.2.1) deadline

theorem Engaged.runJob_heard (h : w.Engaged t f) {b : Backend} {reply : Reply} (hb : b.Tidy)
    (hheard : w.backend.poll w.clock f.pending = (b, .replied reply) ∨
      ∃ p, w.backend.poll w.clock f.pending = (b, p) ∧ (∀ reply, p ≠ .replied reply) ∧
        f.deadline.any (fun d => d.due ≤ w.clock) = true ∧ reply = .late)
    (hdozes : ∀ g ∈ w.flights, g.task ≠ t → g.Dozes b)
    : ({ w with ready := [] } : World Backend Event).runJob (.task t) =
        w.hearing t f.deadline w.serial (b, reply, w.clock) := by
  have hrun : ({ w with ready := [] } : World Backend Event).runTask t =
      w.hearing t f.deadline w.serial (b, reply, w.clock) := by
    unfold runTask
    rw [show ({ w with ready := [] } : World Backend Event).flights = w.flights from rfl, h.find?]
    dsimp only
    rcases hheard with hpoll | ⟨p, hpoll, hstands, hlate, rfl⟩
    . rw [show Engine.poll w.backend w.clock f.pending = (b, .replied reply) from hpoll]
      rfl
    . rw [show Engine.poll w.backend w.clock f.pending = (b, p) from hpoll]
      cases p with
      | replied reply => exact absurd rfl (hstands reply)
      | _ =>
        simp only [hlate, if_true]
        rfl
  unfold runJob
  apply noticing_update hb hrun rfl
  intro g hg
  rw [List.mem_filter] at hg
  exact hdozes g hg.1 (by simpa using hg.2)

theorem reachable_of_idle {limits : Limits} (h : Reachable limits w) : Reachable limits { w with ready := [] } :=
  reachable_of_arranged h rfl rfl rfl (Nat.le_refl _)

theorem runs_of_job {job : Job Event} {w₁ : World Backend Event} (hready : w.ready = [job])
    (hjob : ({ w with ready := [] } : World Backend Event).runJob job = w₁)
    : (∀ limits, Reachable limits w → Reachable limits w₁) ∧ ∀ k w', Runs t k w₁ w' → Runs t (k + 1) w w' := by
  subst hjob
  exact ⟨fun _ hreach => reachable_runJob (reachable_of_idle hreach) job, fun _ _ hruns => .job hready hruns⟩

/--
The world in which a task has looked at its call in vain, and the clock has moved on to the next time that it waits for.
-/
def later (w : World Backend Event) (t : TaskId) (f : Flight) (p : Pending) (clock serial serial' : Nat) :
    World Backend Event :=
  { w with
    clock, ready := [.task t], serial
    flights := w.flights.filter (fun g => g.task ≠ t) ++ [{ f with pending := p, serial := serial' }] }

theorem Engaged.runs_later (h : w.Engaged t f) (hready : w.ready = [.task t]) {p : Pending} {clock : Nat}
    (hpoll : w.backend.poll w.clock f.pending = (w.backend, p)) (hstands : ∀ reply, p ≠ .replied reply)
    (hsoon : f.deadline.any (fun d => d.due ≤ w.clock) = false)
    (hnext : ((p.due?.toList ++ (f.deadline.map Timer.due).toList).filter fun due => w.clock < due).min? = some clock)
    : ∃ serial serial', (w.later t f p clock serial serial').Engaged t { f with pending := p, serial := serial' } ∧
        (∀ limits, Reachable limits w → Reachable limits (w.later t f p clock serial serial')) ∧
        ∀ k w', Runs t k (w.later t f p clock serial serial') w' → Runs t (k + 2) w w' := by
  rcases h.runJob_stands hpoll hstands hsoon with ⟨serial, serial', hjob⟩
  let f' : Flight := { f with pending := p, serial := serial' }
  let w₁ : World Backend Event :=
    { w with ready := [], serial, flights := w.flights.filter (fun g => g.task ≠ t) ++ [f'] }
  rcases runs_of_job (t := t) hready hjob with ⟨hreachable, hruns⟩
  have hengaged : w₁.Engaged t f' := h.wait (show f'.task = t from h.task)
  have hmin : (w₁.dues.filter fun due => w₁.clock < due).min? = some clock := hengaged.min?_dues hnext
  have hmem : clock ∈ f'.timers.map Timer.due := by
    have := List.min?_mem hnext
    rw [dues_timers]
    exact (List.mem_filter.mp this).1
  have hmove : w₁.moveTo clock = w.later t f p clock serial serial' := hengaged.moveTo rfl hmem
  refine ⟨serial, serial', ⟨hengaged.agenda, hengaged.flight, hengaged.task, hengaged.single, hengaged.dozes,
    hengaged.pending⟩, fun limits hreach => ?_, fun k w' hk => ?_⟩
  . rw [← hmove]
    exact reachable_moveTo (hreachable limits hreach) (le_of_min? hmin)
  . apply hruns
    apply Runs.tick (w := w₁) rfl h.pending hmin
    rw [hmove]
    exact hk

theorem Engaged.runs_hearing {b : Backend} {deadline : Option Nat} {p : Pending} {n clock : Nat}
    {out : Backend × Reply × Nat} (hhears : b.Hears deadline out n clock p) (h : w.Engaged t f)
    (hbackend : w.backend = b) (hdeadline : f.deadline.map Timer.due = deadline) (hpending : f.pending = p)
    (hclock : w.clock = clock) (hready : w.ready = [.task t]) (hout : out.1.Tidy)
    (hdozes : ∀ g ∈ w.flights, g.task ≠ t → g.Dozes out.1)
    : ∃ serial, (∀ limits, Reachable limits w → Reachable limits (w.hearing t f.deadline serial out)) ∧
        ∀ k w', Runs t k (w.hearing t f.deadline serial out) w' → Runs t (n + k) w w' := by
  induction hhears generalizing w f with
  | @replied clock p poll time =>
    rcases out with ⟨b', reply, _⟩
    subst hbackend hdeadline hpending hclock
    cases time
    rcases runs_of_job hready (h.runJob_heard hout (.inl poll) hdozes) with ⟨hreachable, hruns⟩
    exact ⟨w.serial, hreachable, fun k w' hk => Nat.add_comm k 1 ▸ hruns k w' hk⟩
  | @late clock p p' poll stands expired time =>
    subst hbackend hdeadline hpending hclock time
    have hjob := h.runJob_heard hout (.inr ⟨p', poll, stands, by simpa [Option.any_map] using expired, rfl⟩) hdozes
    rcases runs_of_job hready hjob with ⟨hreachable, hruns⟩
    exact ⟨w.serial, hreachable, fun k w' hk => Nat.add_comm k 1 ▸ hruns k w' hk⟩
  | @later n clock clock' p p' poll stands soon next _ ih =>
    subst hbackend hdeadline hpending hclock
    rcases h.runs_later hready poll stands (by simpa [Option.any_map] using soon) next with
      ⟨serial, serial', hlater, hreachable, hruns⟩
    have hrest : ∀ g ∈ w.flights.filter (fun g => g.task ≠ t) ++ [{ f with pending := p', serial := serial' }],
        g.task ≠ t → g.Dozes out.1 := by
      intro g hg hne
      rw [List.mem_append, List.mem_singleton] at hg
      rcases hg with hg | rfl
      . exact hdozes g (List.mem_filter.mp hg).1 hne
      . exact absurd h.task hne
    rcases ih hlater rfl rfl rfl rfl rfl hrest with ⟨serial₂, hreachable', hruns'⟩
    have hsame : (w.later t f p' clock' serial serial').hearing t f.deadline serial₂ out =
        w.hearing t f.deadline serial₂ out := by
      simp [hearing, later, List.filter_append, h.task]
    refine ⟨serial₂, fun limits hreach => ?_, fun k w' hk => ?_⟩
    . rw [← hsame]
      exact hreachable' limits (hreachable limits hreach)
    . rw [show n + 2 + k = n + k + 2 by omega]
      apply hruns
      apply hruns'
      rw [hsame]
      exact hk

end World

end BoxRegistry.Simulation
