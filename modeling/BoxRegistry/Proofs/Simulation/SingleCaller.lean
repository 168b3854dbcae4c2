import BoxRegistry.Proofs.Simulation.Schedule

/-!
This module contains the schedule of a world with one caller, who waits for one operation. It is a plain sequence of
jobs and of moves of the clock, and the step of the world is over as soon as there is a result and nothing left to do.
-/

namespace BoxRegistry.Simulation
namespace World

variable {w w' : World Backend Event} {task : TaskId}

/--
What a world goes through until a task is over and nothing is left to do, in a number of jobs and moves of the clock.
-/
inductive Runs (task : TaskId) : Nat → World Backend Event → World Backend Event → Prop where
  | rest {w : World Backend Event} (ready : w.ready = []) (settled : (w.results.lookup task).isSome = true) :
    Runs task 0 w w
  | job {n : Nat} {w w' : World Backend Event} {job : Job Event} {ready : List (Job Event)}
    (head : w.ready = job :: ready) : Runs task n ({ w with ready }.runJob job) w' → Runs task (n + 1) w w'
  | tick {n clock : Nat} {w w' : World Backend Event} (ready : w.ready = [])
    (pending : w.results.lookup task = none)
    (next : (w.dues.filter fun due => w.clock < due).min? = some clock) :
    Runs task n (w.moveTo clock) w' → Runs task (n + 1) w w'

theorem Runs.ended {n : Nat} (h : Runs task n w w')
    : w'.ready = [] ∧ ∃ result, w'.results.lookup task = some result := by
  induction h with
  | rest ready settled => exact ⟨ready, Option.isSome_iff_exists.mp settled⟩
  | job head _ ih => exact ih
  | tick ready pending next _ ih => exact ih

theorem Runs.reachable {n : Nat} {limits : Limits} (h : Runs task n w w') (hw : Reachable limits w)
    : Reachable limits w' := by
  induction h with
  | rest ready settled => exact hw
  | @job n w w' job ready head _ ih =>
    have hnext : Reachable limits { w with ready } := reachable_of_arranged hw rfl rfl rfl (Nat.le_refl _)
    exact ih (reachable_runJob hnext job)
  | tick ready pending next _ ih => exact ih (reachable_moveTo hw (le_of_min? next))

theorem results_enqueue (w : World Backend Event) (job : Job Event) : (w.enqueue job).results = w.results := by
  unfold enqueue
  split
  . split <;> rfl
  . rfl

theorem results_foldl_enqueue (jobs : List (Job Event))
    : (jobs.foldl enqueue w).results = w.results := by
  induction jobs generalizing w with
  | nil => rfl
  | cons job jobs ih => rw [List.foldl_cons, ih, results_enqueue]

theorem results_moveTo (w : World Backend Event) (clock : Nat) : (w.moveTo clock).results = w.results := by
  unfold moveTo noticing
  dsimp only
  rw [results_foldl_enqueue, ← List.foldl_map (f := fun f : Flight => Job.task f.task) (g := enqueue),
    results_foldl_enqueue]

theorem settle_of_idle (h : w.ready = []) (fuel : Nat) : w.settle fuel = w := by
  cases fuel with
  | zero => rfl
  | succ fuel => simp [settle, h]

section Callers

variable {c : Caller}

structure Caller.Awaits (c : Caller) (task : TaskId) : Prop where
  waiting : c.waiting = .operation task
  patience : c.patience = none

theorem visitAll_pending (hc : Caller.Awaits c task) (h : w.results.lookup task = none)
    : w.visitAll [c] = (w, [c]) ∧ busy [c] = 1 := by
  rcases c with ⟨id, began, patience, waiting⟩
  cases hc.waiting
  cases hc.patience
  simp [visitAll, visit, advance, h, giveUp, Caller.outcome?, busy]

theorem visitAll_settled (hc : Caller.Awaits c task) {result : Except Fault Unit}
    (h : w.results.lookup task = some result)
    : w.visitAll [c] = (w, [{ c with waiting := .finished (.ofUnit result) w.clock }]) := by
  rcases c with ⟨id, began, patience, waiting⟩
  cases hc.waiting
  cases hc.patience
  simp [visitAll, visit, advance, h, giveUp, Caller.outcome?]

theorem next?_pending (hc : Caller.Awaits c task)
    : w.next? [c] = (w.dues.filter fun due => w.clock < due).min? := by
  have hreadings : c.waiting.readings = [] := by rw [hc.waiting]; rfl
  have hdues : Caller.dues c = [] := by simp [Caller.dues, hc.waiting, hc.patience, Waiting.readings]
  simp [next?, hreadings, hdues]

def attend (jobs fuel : Nat) (w : World Backend Event) (cs : List Caller) : World Backend Event × List Caller :=
  let (w, after) := w.visitAll cs
  if busy after = 0 then (w, after)
  else if busy after < busy cs ∨ !w.ready.isEmpty then goOn jobs fuel w after
  else
    match w.next? after with
    | none => (w, after)
    | some clock =>
      let (w, after) := (w.moveTo clock).visitAll after
      goOn jobs fuel w after

theorem goOn_succ (jobs fuel : Nat) (w : World Backend Event) (cs : List Caller)
    : w.goOn jobs (fuel + 1) cs = (w.settle jobs).attend jobs fuel cs := rfl

theorem attend_of_runs {n : Nat} (h : Runs task n w w') (hc : Caller.Awaits c task) {result : Except Fault Unit}
    (hresult : w'.results.lookup task = some result) {jobs fuel : Nat} (hjobs : n ≤ jobs) (hfuel : n ≤ fuel) {m : Nat}
    (hm : n ≤ m)
    : (w.settle m).attend jobs fuel [c] = (w', [{ c with waiting := .finished (.ofUnit result) w'.clock }]) := by
  induction h generalizing m fuel with
  | rest ready settled =>
    rw [settle_of_idle ready]
    simp [attend, visitAll_settled hc hresult, busy, Caller.outcome?]
  | @job n w w' job ready head _ ih =>
    cases m with
    | zero => exact absurd hm (Nat.not_succ_le_zero n)
    | succ m =>
      simp only [settle, head]
      exact ih hresult (Nat.le_of_succ_le hjobs) (Nat.le_of_succ_le hfuel) (Nat.le_of_succ_le_succ hm)
  | @tick n clock w w' ready pending next _ ih =>
    cases fuel with
    | zero => exact absurd hfuel (Nat.not_succ_le_zero n)
    | succ fuel =>
      have hlater : (w.moveTo clock).results.lookup task = none := by rw [results_moveTo, pending]
      rw [settle_of_idle ready]
      simp only [attend, visitAll_pending hc pending, ready, next?_pending hc, next, visitAll_pending hc hlater]
      exact ih hresult (Nat.le_of_succ_le hjobs) (Nat.le_of_succ_le_succ hfuel) (Nat.le_of_succ_le hjobs)

theorem goOn_of_runs {n : Nat} (h : Runs task n w w') (hc : Caller.Awaits c task) {result : Except Fault Unit}
    (hresult : w'.results.lookup task = some result) {jobs fuel : Nat} (hjobs : n ≤ jobs) (hfuel : n < fuel)
    : w.goOn jobs fuel [c] = (w', [{ c with waiting := .finished (.ofUnit result) w'.clock }]) := by
  cases fuel with
  | zero => exact absurd hfuel (Nat.not_lt_zero n)
  | succ fuel => exact attend_of_runs h hc hresult hjobs (Nat.le_of_lt_succ hfuel) hjobs

theorem goOn_finished (hready : w.ready = []) (jobs fuel : Nat) {outcome : Outcome} {clock : Nat}
    (hc : c.waiting = .finished outcome clock)
    : w.goOn jobs fuel [c] = (w, [c]) := by
  rcases c with ⟨id, began, patience, waiting⟩
  cases hc
  cases fuel with
  | zero => rfl
  | succ fuel =>
    rw [goOn_succ, settle_of_idle hready]
    simp [attend, visitAll, visit, advance, giveUp, Caller.outcome?, busy]

end Callers

theorem step_of_runs {now : Time.Moment} {key : String} {op : Operation} {n : Nat}
    (hbegin : ({ w with now } : World Backend Event).operate key op = (w', .operation task))
    {w'' : World Backend Event} (h : Runs task n w' w'') {result : Except Fault Unit}
    (hresult : w''.results.lookup task = some result) (hn : n < endurance)
    : w.step now [(.operate (.text key) op, none)] = (w'', [(.ofUnit result, w''.clock - w.clock)]) := by
  have hreceive : ({ w with now } : World Backend Event).receiveAll 0 [(.operate (.text key) op, none)] =
      (w', [{ id := 0, began := w.clock, patience := none, waiting := .operation task }]) := by
    simp [receiveAll, receive, beginWish, Key.resolve, hbegin, giveUp]
  unfold World.step
  rw [hreceive]
  dsimp only
  rw [goOn_of_runs h ⟨rfl, rfl⟩ hresult (Nat.le_of_lt hn) hn]
  simp [settle_of_idle h.ended.1, Caller.outcome?]

theorem step_of_refused {now : Time.Moment} {key : String} {op : Operation} {f : Fault} (hready : w.ready = [])
    (hbegin : w.service.begin key op = .error f)
    : w.step now [(.operate (.text key) op, none)] = ({ w with now }, [(.fault f, 0)]) := by
  have hreceive : ({ w with now } : World Backend Event).receiveAll 0 [(.operate (.text key) op, none)] =
      ({ w with now },
        [{ id := 0, began := w.clock, patience := none, waiting := .finished (.fault f) w.clock }]) := by
    simp [receiveAll, receive, beginWish, operate, Key.resolve, hbegin, giveUp, Caller.outcome?]
  unfold World.step
  rw [hreceive]
  dsimp only
  rw [goOn_finished (w := { w with now }) hready _ _ rfl, settle_of_idle (w := { w with now }) hready]
  simp [Caller.outcome?]

end World

end BoxRegistry.Simulation
