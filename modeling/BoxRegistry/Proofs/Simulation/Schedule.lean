import BoxRegistry.Proofs.Simulation.Run

/-!
This module contains the proof that the schedule by which a world is run, with its line of jobs and its clock that
moves when nothing is left to do, is made of the steps of a world. What holds in all reachable worlds holds
at the end of every such run.
-/

namespace BoxRegistry.Simulation

def Waiting.Open (waiting : Waiting) : Prop :=
  ∀ pending, waiting ≠ .closing pending

theorem Waiting.open_of_aside {waiting : Waiting} (h : waiting.isTurn = false) : waiting.Open := by
  rintro pending rfl
  cases h

namespace World

variable {w w' : World Backend Event} {limits : Limits}

section Callers

theorem open_takeTurn (h : w.Sane limits) (id : CallerId) (change : Service × Turn × List Effect)
    : (w.takeTurn id change).2.Open := by
  rcases change with ⟨s, turn, effects⟩
  intro pending
  cases turn with
  | wait => simp [takeTurn]
  | done => simp [takeTurn]
  | close =>
    rcases takeTurn_close h.coupled.tidy.scripts id s effects with ⟨-, -, -, hfinished⟩
    rw [hfinished]
    simp

theorem open_beginWish (h : w.Sane limits) (id : CallerId) (wish : Wish) : (w.beginWish id wish).2.Open := by
  have hbegins := w.begins id wish
  generalize w.beginWish id wish = out at hbegins
  cases hbegins with
  | asks inquires => exact Waiting.open_of_aside inquires.2
  | operates slot opened => exact Waiting.open_of_aside rfl
  | stopsAll waiting aside => exact Waiting.open_of_aside aside
  | shutsDown grace => exact open_takeTurn h id _

theorem open_advance (h : w.Sane limits) (id : CallerId) {waiting : Waiting} (hopen : waiting.Open)
    : (w.advance id waiting).2.Open := by
  have hresumes := w.resumes id waiting
  generalize w.advance id waiting = out at hresumes
  cases hresumes with
  | asks inquires => exact Waiting.open_of_aside inquires.2
  | turns => exact open_takeTurn h id _
  | closes pending => exact absurd rfl (hopen pending)

def Attends (limits : Limits) (out : World Backend Event × Caller) : Prop :=
  Reachable limits out.1 ∧ out.2.waiting.Open

theorem attends_giveUp (h : Reachable limits w) {c : Caller} (hc : c.waiting.Open) : Attends limits (w.giveUp c) := by
  unfold giveUp
  split
  . exact ⟨h.step (.giveUp c.id), by simp [Waiting.Open]⟩
  . exact ⟨h, hc⟩

theorem attends_receive (h : Reachable limits w) (id : CallerId) (wish : Wish) (patience : Option Nat)
    : Attends limits (w.receive id wish patience) := by
  apply attends_giveUp (h.step (.begin id wish))
  exact open_beginWish (sane_of_reachable h) id wish

theorem attends_visit (h : Reachable limits w) {c : Caller} (hc : c.waiting.Open) : Attends limits (w.visit c) := by
  apply attends_giveUp (h.step (.look c.id c.waiting hc))
  exact open_advance (sane_of_reachable h) c.id hc

theorem attends_receiveAll (h : Reachable limits w) (id : CallerId) (wishes : List (Wish × Option Nat))
    : Reachable limits (w.receiveAll id wishes).1 ∧ ∀ c ∈ (w.receiveAll id wishes).2, c.waiting.Open := by
  induction wishes generalizing w id with
  | nil => exact ⟨h, by simp [receiveAll]⟩
  | cons wish wishes ih =>
    rcases wish with ⟨wish, patience⟩
    have hfirst := attends_receive h id wish patience
    have hrest := ih hfirst.1 (id + 1)
    refine ⟨hrest.1, ?_⟩
    intro c hc
    simp only [receiveAll, List.mem_cons] at hc
    rcases hc with rfl | hc
    . exact hfirst.2
    . exact hrest.2 c hc

theorem attends_visitAll (h : Reachable limits w) {cs : List Caller} (hcs : ∀ c ∈ cs, c.waiting.Open)
    : Reachable limits (w.visitAll cs).1 ∧ ∀ c ∈ (w.visitAll cs).2, c.waiting.Open := by
  induction cs generalizing w with
  | nil => exact ⟨h, by simp [visitAll]⟩
  | cons c cs ih =>
    have hfirst := attends_visit h (hcs c List.mem_cons_self)
    have hrest := ih hfirst.1 fun c' hc' => hcs c' (List.mem_cons_of_mem _ hc')
    refine ⟨hrest.1, ?_⟩
    intro c' hc'
    simp only [visitAll, List.mem_cons] at hc'
    rcases hc' with rfl | hc'
    . exact hfirst.2
    . exact hrest.2 c' hc'

end Callers

section Jobs

theorem reachable_of_arranged (h : Reachable limits w) (hservice : w'.service = w.service)
    (hbackend : w'.backend = w.backend) (hflights : w'.flights = w.flights) (hclock : w.clock ≤ w'.clock)
    : Reachable limits w' :=
  h.step (.arrange hservice hbackend hflights hclock)

theorem reachable_enqueue (h : Reachable limits w) (job : Job Event) : Reachable limits (w.enqueue job) := by
  unfold enqueue
  split
  . split
    . exact h
    . exact reachable_of_arranged h rfl rfl rfl (Nat.le_refl _)
  . exact reachable_of_arranged h rfl rfl rfl (Nat.le_refl _)

theorem reachable_foldl_enqueue {α : Type} (h : Reachable limits w) (f : α → Job Event) (jobs : List α)
    : Reachable limits (jobs.foldl (fun w a => w.enqueue (f a)) w) := by
  induction jobs generalizing w with
  | nil => exact h
  | cons job jobs ih => exact ih (reachable_enqueue h (f job))

theorem reachable_noticing (change : World Backend Event → World Backend Event) (h : Reachable limits (change w))
    : Reachable limits (w.noticing change) :=
  reachable_foldl_enqueue h (fun f : Flight => .task f.task) _

theorem reachable_runJob (h : Reachable limits w) (job : Job Event) : Reachable limits (w.runJob job) := by
  cases job with
  | task task => exact reachable_noticing (fun w => w.runTask task) (h.step (.turn task))
  | event event => exact reachable_noticing (fun w => { w with backend := _ }) (h.step (.happen event))

theorem reachable_settle (h : Reachable limits w) (fuel : Nat) : Reachable limits (w.settle fuel) := by
  induction fuel generalizing w with
  | zero => exact h
  | succ fuel ih =>
    unfold settle
    split
    . exact h
    . apply ih
      apply reachable_runJob
      exact reachable_of_arranged h rfl rfl rfl (Nat.le_refl _)

theorem reachable_moveTo (h : Reachable limits w) {clock : Nat} (hclock : w.clock ≤ clock)
    : Reachable limits (w.moveTo clock) := by
  unfold moveTo
  dsimp only
  rw [List.foldl_map]
  apply reachable_foldl_enqueue
  apply reachable_noticing
  exact reachable_of_arranged h rfl rfl rfl hclock

theorem reachable_schedule (h : Reachable limits w) (delay : Nat) (event : Event)
    : Reachable limits (w.schedule delay event) := by
  unfold schedule
  split
  . exact reachable_enqueue h _
  . exact reachable_of_arranged h rfl rfl rfl (Nat.le_refl _)

theorem le_of_min? {clock due : Nat} {dues : List Nat} (h : (dues.filter fun d => clock < d).min? = some due)
    : clock ≤ due := by
  have hmem := List.min?_mem h
  rw [List.mem_filter, decide_eq_true_eq] at hmem
  exact Nat.le_of_lt hmem.2

end Jobs

section Runs

theorem le_of_next? {cs : List Caller} {clock : Nat} (h : w.next? cs = some clock) : w.clock ≤ clock := by
  rcases Option.or_eq_some_iff.mp ((Option.orElse_eq_or).symm.trans h) with h | ⟨-, h⟩
  . exact le_of_min? h
  . exact le_of_min? h

theorem reachable_goOn (h : Reachable limits w) (jobs fuel : Nat) {cs : List Caller}
    (hcs : ∀ c ∈ cs, c.waiting.Open)
    : Reachable limits (w.goOn jobs fuel cs).1 := by
  induction fuel generalizing w cs with
  | zero => exact h
  | succ fuel ih =>
    have hvisit := attends_visitAll (reachable_settle h jobs) hcs
    unfold goOn
    dsimp only
    split
    . exact hvisit.1
    . split
      . exact ih hvisit.1 hvisit.2
      . split
        . exact hvisit.1
        . next clock hnext =>
          have hlater := attends_visitAll (reachable_moveTo hvisit.1 (le_of_next? hnext)) hvisit.2
          exact ih hlater.1 hlater.2

theorem reachable_step (h : Reachable limits w) (now : Time.Moment) (wishes : List (Wish × Option Nat))
    : Reachable limits (w.step now wishes).1 := by
  have hnow : Reachable limits { w with now } := reachable_of_arranged h rfl rfl rfl (Nat.le_refl _)
  have hreceive := attends_receiveAll hnow 0 wishes
  unfold World.step
  exact reachable_settle (reachable_goOn hreceive.1 _ _ hreceive.2) _

theorem reachable_tamper (now : Time.Moment) {change : World Backend Event → World Backend Event}
    (h : Reachable limits (change { w with now }))
    : Reachable limits (w.tamper now change) :=
  reachable_settle h _

theorem reachable_awaitTest (h : Reachable limits w) (test : World Backend Event → Bool) (fuel : Nat)
    : Reachable limits (w.awaitTest test fuel).1 := by
  induction fuel generalizing w with
  | zero => exact h
  | succ fuel ih =>
    have hsettle := reachable_settle h endurance
    unfold awaitTest
    dsimp only
    split
    . exact hsettle
    . split
      . exact hsettle
      . next clock hmin => exact ih (reachable_moveTo hsettle (le_of_min? hmin))

end Runs

end World

end BoxRegistry.Simulation
