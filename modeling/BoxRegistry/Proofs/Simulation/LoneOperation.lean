import BoxRegistry.Proofs.Registry.NamesAndCounters
import BoxRegistry.Proofs.Simulation.AwaitedReply
import BoxRegistry.Proofs.Simulation.Ownership

/-!
This module contains an operation that is carried out alone, in a world where nothing else happens: from one move to
the next it waits for one reply, and the world is at rest again once it is over.
-/

namespace BoxRegistry

open Time (Moment)

def Bound.deadline (clock : Nat) (previous : Option Nat) : Bound → Option Nat
  | unlimited => none
  | within span => some (clock + span.ticks)
  | remaining => previous

namespace Cell

variable {c : Cell} {limits : Limits} {fresh task : TaskId} {op : Operation} {m : Move}

structure Waits (c : Cell) (limits : Limits) (task : TaskId) (op : Operation) (m : Move) (stage : Stage)
    (out : Cell × List Effect) : Prop where
  box : out.1.box = m.box.rewatch 0 m.deeds
  duty : out.1.duty task = some (.work op stage)
  others : ∀ t d, t ≠ task → out.1.duty t = some d → c.duty t = some d
  effects : out.2 = [.call task (stage.call m.box.spec) (stage.bound limits)]
  enacts : ∀ name p, m.deeds.foldl (Deed.enact name) p = p

theorem waits_apply {origin : Option Stage} (hm : op.Moves c.box origin m) {stage : Stage}
    (hnext : m.next = .wait stage)
    : Waits c limits task op m stage (c.apply limits fresh task op m) := by
  have hothers : ∀ deeds, (∀ t d, (({ c with box := m.box } : Cell).performAll fresh deeds).1.duty t = some d →
      c.duty t = some d) → m.deeds = deeds →
      ∀ t d, t ≠ task → (c.apply limits fresh task op m).1.duty t = some d → c.duty t = some d := by
    rintro deeds hdeeds rfl t d hne hd
    simp only [apply, hnext] at hd
    exact hdeeds t d (duty_assign_other hne hd)
  cases hm with
  | set free fits =>
    cases hnext
    exact ⟨rfl, duty_apply_wait c limits fresh task op rfl, hothers [] (fun _ _ h => h) rfl, rfl, fun _ _ => rfl⟩
  | press stops fits =>
    cases hnext
    exact ⟨rfl, duty_apply_wait c limits fresh task op rfl, hothers [] (fun _ _ h => h) rfl, rfl, fun _ _ => rfl⟩
  | beginStop stage stops fits =>
    cases hnext
    refine ⟨rfl, duty_apply_wait c limits fresh task op rfl, hothers [.disarm] ?_ rfl, rfl, fun _ _ => rfl⟩
    exact fun t d h => ((Orderly.duty_disarm c t).mp h).1
  | _ => cases hnext

/--
What a move that completes an operation leaves behind, if nobody else waits for the box: nothing but the box, or a watch
on its process that has not begun.
-/
inductive Finishes (c : Cell) (fresh task : TaskId) (m : Move) (result : Except Fault Unit) :
    Cell × List Effect → Prop where
  | quiet {out : Cell × List Effect} (box : out.1.box = (m.box.rewatch fresh m.deeds).handOver)
    (duty : ∀ t d, out.1.duty t = some d → t ≠ task ∧ c.duty t = some d)
    (effects : out.2 = (m.deeds.filterMap Deed.released?).map .release ++ [.settled task result])
    (unwatched : ∀ pid, .watch pid ∉ m.deeds) : Finishes c fresh task m result out
  | armed {out : Cell × List Effect} {pid : Pid} (box : out.1.box = (m.box.rewatch fresh m.deeds).handOver)
    (duty : ∀ t d, t ≠ fresh → out.1.duty t = some d → t ≠ task ∧ c.duty t = some d)
    (effects : out.2 = [.wake fresh, .settled task result]) (post : out.1.duty fresh = some (.post pid))
    (watched : .watch pid ∈ m.deeds) (kept : m.deeds.filterMap Deed.released? = []) :
    Finishes c fresh task m result out

theorem Waits.congr {c' : Cell} {stage : Stage} {out : Cell × List Effect} (h : c.Waits limits task op m stage out)
    (hduty : c.duty = c'.duty)
    : c'.Waits limits task op m stage out :=
  { h with others := by rw [← hduty]; exact h.others }

theorem Finishes.congr {c' : Cell} {result : Except Fault Unit} {out : Cell × List Effect}
    (h : c.Finishes fresh task m result out) (hduty : c.duty = c'.duty)
    : c'.Finishes fresh task m result out := by
  cases h with
  | quiet box duty effects unwatched => exact .quiet box (by rw [← hduty]; exact duty) effects unwatched
  | armed box duty effects post watched kept =>
    exact .armed box (by rw [← hduty]; exact duty) effects post watched kept

theorem performAll_unwatched (c : Cell) (fresh : TaskId) {deeds : List Deed} (h : ∀ pid, .watch pid ∉ deeds)
    : (∀ t d, (c.performAll fresh deeds).1.duty t = some d → c.duty t = some d) ∧
        (c.performAll fresh deeds).2 = (deeds.filterMap Deed.released?).map .release := by
  induction deeds generalizing c fresh with
  | nil => exact ⟨fun _ _ h => h, rfl⟩
  | cons deed deeds ih =>
    have hrest := ih (c.perform fresh deed) (fresh + deed.spawns) fun pid hmem => h pid (List.mem_cons_of_mem _ hmem)
    cases deed with
    | watch pid => exact absurd List.mem_cons_self (h pid)
    | disarm => exact ⟨fun t d hd => ((Orderly.duty_disarm c t).mp (hrest.1 t d hd)).1, hrest.2⟩
    | release pid => exact ⟨hrest.1, congrArg (Effect.release pid :: ·) hrest.2⟩
    | count milestone => exact hrest
    | unlist => exact hrest

section Finish

variable {result : Except Fault Unit} (hnext : m.next = .finish result)
include hnext

theorem box_apply_finish : (c.apply limits fresh task op m).1.box = (m.box.rewatch fresh m.deeds).handOver := by
  simp only [apply, hnext, leave, dropTask, box_performAll]

theorem effects_apply_finish (hqueue : m.box.queue = [])
    : (c.apply limits fresh task op m).2 =
        (({ c with box := m.box } : Cell).performAll fresh m.deeds).2 ++ [.settled task result] := by
  have hidle : (m.box.rewatch fresh m.deeds).handOver.holder = none := by
    rcases m.box.exists_rewatch fresh m.deeds with ⟨watch, heq⟩
    rw [heq, Box.handOver, hqueue]
    rfl
  simp only [apply, hnext, leave, box_performAll, hidle, Option.toList_none, List.map_nil, List.append_nil]

theorem duty_apply_finish {t : TaskId} {d : Duty}
    : (c.apply limits fresh task op m).1.duty t = some d ↔
        t ≠ task ∧ (({ c with box := m.box } : Cell).performAll fresh m.deeds).1.duty t = some d := by
  simp [apply, hnext, leave, dropTask]

theorem finishes_quiet (hqueue : m.box.queue = []) (hunwatched : ∀ pid, .watch pid ∉ m.deeds)
    : Finishes c fresh task m result (c.apply limits fresh task op m) := by
  have hall := performAll_unwatched { c with box := m.box } fresh hunwatched
  refine .quiet (box_apply_finish hnext) ?_ (by rw [effects_apply_finish hnext hqueue, hall.2]) hunwatched
  intro t d hd
  rw [duty_apply_finish hnext] at hd
  exact ⟨hd.1, hall.1 t d hd.2⟩

theorem finishes_armed (hqueue : m.box.queue = []) (hlt : task < fresh) {pid : Pid}
    (harm : ({ c with box := m.box } : Cell).performAll fresh m.deeds =
      (({ c with box := m.box } : Cell).arm fresh pid, [.wake fresh]))
    (hwatched : .watch pid ∈ m.deeds) (hkept : m.deeds.filterMap Deed.released? = [])
    : Finishes c fresh task m result (c.apply limits fresh task op m) := by
  refine .armed (box_apply_finish hnext) ?_ (by rw [effects_apply_finish hnext hqueue, harm]; rfl) ?_ hwatched hkept
  . intro t d hne hd
    rw [duty_apply_finish hnext, harm] at hd
    have hd' : ({ c with box := m.box } : Cell).disarm.duty t = some d := by
      simpa [arm, duty_assign, hne] using hd.2
    exact ⟨hd.1, ((Orderly.duty_disarm { c with box := m.box } t).mp hd').1⟩
  . rw [duty_apply_finish hnext, harm]
    exact ⟨Nat.ne_of_gt hlt, by simp [arm, duty_assign]⟩

theorem finishes_apply {origin : Option Stage} (hm : op.Moves c.box origin m) (hqueue : m.box.queue = [])
    (hlt : task < fresh)
    : Finishes c fresh task m result (c.apply limits fresh task op m) := by
  cases hm with
  | launch start created listed running process => exact finishes_armed hnext hqueue hlt rfl (by simp) rfl
  | rearm f stops runs unwatched => exact finishes_armed hnext hqueue hlt rfl (by simp) rfl
  | refuse f turns => exact finishes_quiet hnext hqueue (by simp [Box.refuse])
  | failLaunch start created listed failed process => exact finishes_quiet hnext hqueue (by simp)
  | turnOver runs active process turns => exact finishes_quiet hnext hqueue (by simp)
  | stop stops runs unwatched stopped process ends => exact finishes_quiet hnext hqueue (by simp)
  | stopAndRemove removes runs unwatched stopped process ends =>
    exact finishes_quiet hnext hqueue (by simp [Box.unlist])
  | remove removes inactive listed => exact finishes_quiet hnext hqueue (by simp [Box.unlist])
  | crash message calm => cases hnext
  | set free fits => cases hnext
  | beginStop stage stops fits => cases hnext
  | press stops fits => cases hnext

end Finish

end Cell

namespace Registry

variable {r r' : Registry} {slot : Slot} {c c' : Cell}

theorem task?_of_changes (h : Changes r r' slot c') {t : TaskId} {task : Task} (ht : r'.task? t = some task)
    : task.slot = slot ∧ c'.duty t = some task.duty ∨ task.slot ≠ slot ∧ r.task? t = some task := by
  rcases exists_cell? (List.getElem?_eq_getElem (h.tidy.housed t task ht)) with ⟨c, hc, -⟩
  have hduty : c.duty t = some task.duty := by rw [← (cell?_eq_some.mp hc).2, duty?_eq_some, ht]
  by_cases hslot : task.slot = slot
  . rw [hslot, h.cell] at hc
    cases hc
    exact .inl ⟨hslot, hduty⟩
  . rw [h.others _ hslot] at hc
    exact .inr ⟨hslot, task?_of_duty hc hduty⟩

structure Makes (r : Registry) (e : Event) (slot : Slot) (t : TaskId) (op : Operation) (c : Cell) (m : Move) : Prop where
  cell : r.cell? slot = some c
  place : e.slot? r = some slot
  duty : ∃ d, c.duty t = some d
  step : ∃ (c₁ : Cell) (origin : Option Stage), c₁.duty = c.duty ∧ op.Moves c₁.box origin m ∧
    c.step r.limits r.nextTask slot e = c₁.apply r.limits r.nextTask t op m
  deeds : c.deeds r.limits e = m.deeds
  spec : m.box.spec = c.box.spec
  queue : m.box.queue = []
  nextTask : r.nextTask ≤ (r.step e).1.nextTask

theorem Tidy.task?_nextTask (h : r.Tidy) : r.task? r.nextTask = none := by
  rw [Option.eq_none_iff_forall_ne_some]
  intro task htask
  exact Nat.lt_irrefl _ (h.fresh _ task htask)

namespace Makes

variable {e : Event} {t : TaskId} {op : Operation} {m : Move}

theorem lt_nextTask (h : Makes r e slot t op c m) (htidy : r.Tidy) : t < r.nextTask := by
  rcases h.duty with ⟨d, hd⟩
  exact Registry.lt_nextTask htidy h.cell hd

theorem waits (h : Makes r e slot t op c m) {stage : Stage} (hnext : m.next = .wait stage)
    : c.Waits r.limits t op m stage (c.step r.limits r.nextTask slot e) := by
  rcases h.step with ⟨c₁, origin, hsame, hmoves, hstep⟩
  rw [hstep]
  exact (c₁.waits_apply hmoves hnext).congr hsame

theorem finishes (h : Makes r e slot t op c m) (htidy : r.Tidy) {result : Except Fault Unit}
    (hnext : m.next = .finish result)
    : c.Finishes r.nextTask t m result (c.step r.limits r.nextTask slot e) := by
  rcases h.step with ⟨c₁, origin, hsame, hmoves, hstep⟩
  rw [hstep]
  exact (c₁.finishes_apply hnext hmoves h.queue (h.lt_nextTask htidy)).congr hsame

end Makes

theorem makes_enter (hc : r.cell? slot = some c) {t : TaskId} {op : Operation}
    (hduty : c.duty t = some (.enter op)) (hholder : c.box.holder = none) (hqueue : c.box.queue = []) (now : Moment)
    : Makes r (.turn now t) slot t op c (op.enter { c.box with holder := some t }) := by
  have hclaim : c.box.claim t = (true, { c.box with holder := some t }) := by simp [Box.claim, hholder]
  have halike := op.alike_enter { c.box with holder := some t }
  rcases cell?_eq_some.mp hc with ⟨hbox, -⟩
  refine ⟨hc, ?_, ⟨_, hduty⟩, ⟨{ c with box := { c.box with holder := some t } }, none, rfl, ?_, ?_⟩, ?_,
    halike.spec, by rw [halike.queue, hqueue], ?_⟩
  . exact slot?_of_duty rfl hc hduty
  . exact Operation.moves_enter op _
  . rw [Cell.step_enter hduty (by rw [hclaim]), hclaim]
  . simp [Cell.deeds, Cell.deedsOfTurn, hduty, hclaim]
  . simp only [step, run, task?_of_duty hc hduty, hbox, withBox, hclaim, if_true]
    exact le_nextTask_apply (r.modifyBox slot fun _ => { c.box with holder := some t }) slot t op _

theorem makes_proceed (hc : r.cell? slot = some c) (hsound : c.Sound) {t : TaskId} {op : Operation}
    {stage : Stage} (hduty : c.duty t = some (.work op stage)) (hqueue : c.box.queue = []) (now : Moment)
    (reply : Reply)
    : Makes r (.reply now t reply) slot t op c (op.proceed r.limits now c.box stage reply) := by
  have halike := op.alike_proceed r.limits now c.box stage reply
  rcases cell?_eq_some.mp hc with ⟨hbox, -⟩
  refine ⟨hc, ?_, ⟨_, hduty⟩, ⟨c, some stage, rfl, ?_, ?_⟩, ?_, halike.spec,
    by rw [halike.queue, hqueue], ?_⟩
  . exact slot?_of_duty rfl hc hduty
  . exact Operation.moves_proceed (hsound.fits t op stage hduty) r.limits now reply
  . exact Cell.step_reply_work hduty _ _ _ _ _
  . simp [Cell.deeds, hduty]
  . simp only [step, answer, task?_of_duty hc hduty, hbox]
    exact le_nextTask_apply _ slot t op _

end Registry

namespace Simulation
namespace World

open Registry (Makes)

variable {w₀ v w : World Backend Event} {slot : Slot} {t : TaskId} {op : Operation} {c : Cell} {m : Move}
  {e : Registry.Event}

/--
What stays true from one world to another, while a task is all that goes on, as far as others are concerned than the
box that the task works on.
-/
structure Underway (w₀ w : World Backend Event) (slot : Slot) (t : TaskId) (c : Cell) : Prop where
  changes : Registry.Changes w₀.service.registry w.service.registry slot c
  closed : w.service.closed = w₀.service.closed
  now : w.now = w₀.now
  agenda : w.agenda = []
  idle : ∀ t' task, t' ≠ t → w.service.registry.task? t' = some task → ∃ pid, task.duty = .watch pid
  dozes : ∀ f ∈ w.flights, f.task ≠ t → f.Dozes w.backend
  results : ∀ entry ∈ w.results, entry.1 < t

structure Asking (w₀ w : World Backend Event) (slot : Slot) (t : TaskId) (op : Operation) (stage : Stage) (c : Cell)
    (b : Backend) (clock : Nat) (deadline : Option Nat) : Prop extends Underway w₀ w slot t c where
  duty : c.duty t = some (.work op stage)
  papers : w.service.registry.papers = w₀.service.registry.papers
  ready : w.ready = [.task t]
  time : w.clock = clock
  backend : w.backend = b.noteErrand (.call (stage.call c.box.spec))
  flight : ∃ f ∈ w.flights, f.task = t ∧ f.pending = .held (.call (stage.call c.box.spec)) .pass clock ∧
    f.deadline.map Timer.due = deadline

structure Poised (w₀ v : World Backend Event) (slot : Slot) (t : TaskId) (c : Cell) : Prop
    extends Underway w₀ v slot t c where
  papers : v.service.registry.papers = w₀.service.registry.papers
  ready : v.ready = []
  flights : ∀ f ∈ v.flights, f.task ≠ t
  scripts : v.backend.scripts = []

theorem idle_step (h : Underway w₀ v slot t c) (hmakes : Makes v.service.registry e slot t op c m) {t' : TaskId}
    {task : Task} (hne : t' ≠ t) (htask : (v.service.registry.step e).1.task? t' = some task)
    (hold : ∀ d, (c.step v.service.registry.limits v.service.registry.nextTask slot e).1.duty t' = some d →
      c.duty t' = some d)
    : ∃ pid, task.duty = .watch pid := by
  have hchanges := (Registry.changes_step h.changes.tidy hmakes.cell hmakes.place).1
  rcases Registry.task?_of_changes hchanges htask with ⟨-, hduty⟩ | ⟨-, htask'⟩
  . exact h.idle t' ⟨slot, task.duty⟩ hne (Registry.task?_of_duty hmakes.cell (hold _ hduty))
  . exact h.idle t' task hne htask'

theorem service_update_eq {s : Service} {change : Registry × List Effect} {effects : List Effect}
    (h : change.2 = effects)
    : s.update change = ((s.update change).1, effects) := by
  rw [← h]
  rfl

theorem update_call (hscripts : v.backend.scripts = []) (s : Service) (t : TaskId) (call : Call) (bound : Bound)
    (previous : Option Timer)
    : ∃ f : Flight, f.task = t ∧ f.pending = .held (.call call) .pass v.clock ∧
        f.deadline.map Timer.due = bound.deadline v.clock (previous.map Timer.due) ∧
        v.update (s, [.call t call bound]) previous =
          { v with
            service := s, backend := v.backend.noteErrand (.call call), serial := v.serial + 1,
            flights := (v.flights ++ [f]).filter fun f => (s.registry.task? f.task).isSome,
            ready := .task t :: v.ready } := by
  have hbegin : Engine.begin v.backend v.clock (.call call) =
      (v.backend.noteErrand (.call call), .held (.call call) .pass v.clock) := Backend.begin_of_plain hscripts _ _
  cases bound with
  | unlimited =>
    refine ⟨⟨t, .held (.call call) .pass v.clock, v.serial, none⟩, rfl, rfl, rfl, ?_⟩
    simp [update, perform, startCall, hbegin]
  | within span =>
    refine ⟨⟨t, .held (.call call) .pass v.clock, v.serial, some (v.timer span.ticks)⟩, rfl, rfl, rfl, ?_⟩
    simp [update, perform, startCall, hbegin, timer]
  | remaining =>
    refine ⟨⟨t, .held (.call call) .pass v.clock, v.serial, previous⟩, rfl, rfl, rfl, ?_⟩
    simp [update, perform, startCall, hbegin]

theorem Poised.asks (h : Poised w₀ v slot t c) (hmakes : Makes v.service.registry e slot t op c m) {stage : Stage}
    (hnext : m.next = .wait stage) (previous : Option Timer)
    : ∃ c', Asking w₀ (v.update (v.service.update (v.service.registry.step e)) previous) slot t op stage c' v.backend
          v.clock ((stage.bound v.service.registry.limits).deadline v.clock (previous.map Timer.due)) ∧
        c'.box = m.box.rewatch 0 m.deeds := by
  rcases Registry.changes_step h.changes.tidy hmakes.cell hmakes.place with ⟨hchanges, heffects⟩
  have hpapers := Registry.papers_step h.changes.tidy hmakes.cell hmakes.place
  have hidle := fun (t' : TaskId) (task : Task) (hne : t' ≠ t)
    (htask : (v.service.registry.step e).1.task? t' = some task) => idle_step h.toUnderway hmakes hne htask
  have hwaits := hmakes.waits hnext
  rw [hmakes.deeds, hwaits.enacts] at hpapers
  generalize c.step v.service.registry.limits v.service.registry.nextTask slot e = out at hchanges heffects hidle hwaits
  rcases hwaits with ⟨hbox, hduty, hothers, hcall, -⟩
  have hspec : out.1.box.spec = m.box.spec := by
    rcases m.box.exists_rewatch 0 m.deeds with ⟨watch, heq⟩
    rw [hbox, heq]
  rcases update_call h.scripts (v.service.update (v.service.registry.step e)).1 t (stage.call m.box.spec)
    (stage.bound v.service.registry.limits) previous with ⟨f, hftask, hfpending, hfdeadline, hupdate⟩
  rw [service_update_eq (heffects.trans hcall), hupdate]
  have htask : (v.service.registry.step e).1.task? t = some ⟨slot, .work op stage⟩ :=
    Registry.task?_of_duty hchanges.cell hduty
  refine ⟨out.1, ⟨⟨h.changes.trans hchanges, h.closed, h.now, h.agenda, ?_, ?_, h.results⟩, hduty, ?_, ?_, rfl, ?_, ?_⟩,
    hbox⟩
  . intro t' task hne htask'
    exact hidle t' task hne htask' fun d hd => hothers t' d hne hd
  . intro g hg hne
    have hmem := (List.mem_filter.mp hg).1
    rw [List.mem_append, List.mem_singleton] at hmem
    rcases hmem with hmem | rfl
    . exact (h.dozes g hmem hne).same (v.backend.same_noteErrand _)
    . exact absurd hftask hne
  . exact hpapers.trans h.papers
  . simp [h.ready]
  . rw [hspec]
  . refine ⟨f, List.mem_filter.mpr ⟨List.mem_append_right _ (List.mem_singleton_self f), ?_⟩, hftask, ?_, hfdeadline⟩
    . change ((v.service.registry.step e).1.task? f.task).isSome = true
      rw [hftask, htask]
      rfl
    . rw [hfpending, hspec]

theorem idle_finish (h : Underway w₀ v slot t c) (hmakes : Makes v.service.registry e slot t op c m) {t' : TaskId}
    {task : Task} (htask : (v.service.registry.step e).1.task? t' = some task)
    (hold : ∀ d, (c.step v.service.registry.limits v.service.registry.nextTask slot e).1.duty t' = some d →
      t' ≠ t ∧ c.duty t' = some d)
    : ∃ pid, task.duty = .watch pid := by
  have hchanges := (Registry.changes_step h.changes.tidy hmakes.cell hmakes.place).1
  have hne : t' ≠ t := by
    rintro rfl
    rcases hmakes.duty with ⟨d, hd⟩
    have hown := Registry.task?_of_duty hmakes.cell hd
    rcases Registry.task?_of_changes hchanges htask with ⟨-, hduty⟩ | ⟨hslot, htask'⟩
    . exact (hold _ hduty).1 rfl
    . rw [hown] at htask'
      cases htask'
      exact hslot rfl
  exact idle_step h hmakes hne htask fun d hd => (hold d hd).2

theorem update_release (s : Service) (pids : List Pid) (t : TaskId) (result : Except Fault Unit)
    (previous : Option Timer)
    : v.update (s, pids.map .release ++ [.settled t result]) previous =
        { v with
          service := s, backend := pids.foldl Backend.release v.backend, results := (t, result) :: v.results,
          flights := v.flights.filter fun f => (s.registry.task? f.task).isSome } := by
  have hfold : ∀ v : World Backend Event, (pids.map Effect.release).foldl (perform previous) v =
      { v with backend := pids.foldl Backend.release v.backend } := by
    induction pids with
    | nil => exact fun v => rfl
    | cons pid pids ih =>
      intro v
      rw [List.map_cons, List.foldl_cons, ih]
      rfl
  simp [update, hfold, perform]

theorem update_wake (hready : v.ready = []) (s : Service) (fresh t : TaskId) (result : Except Fault Unit)
    (previous : Option Timer)
    : v.update (s, [.wake fresh, .settled t result]) previous =
        { v with
          service := s, ready := [.task fresh], results := (t, result) :: v.results,
          flights := v.flights.filter fun f => (s.registry.task? f.task).isSome } := by
  simp [update, perform, enqueue, hready]

theorem Backend.same_releases (b : Backend) (pids : List Pid) : b.Same (pids.foldl Backend.release b) := by
  induction pids generalizing b with
  | nil => exact .refl b
  | cons pid pids ih => exact (b.same_release pid).trans (ih _)

/--
The operation is over. If it has armed a watch on the process, then this has yet to begin, and nothing else has.
-/
structure Done (w₀ w : World Backend Event) (slot : Slot) (t : TaskId) (m : Move) (result : Except Fault Unit)
    (b : Backend) (clock : Nat) (t' : TaskId) (c : Cell) : Prop extends Underway w₀ w slot t' c where
  box : ∃ watch, c.box = ({ m.box with watch } : Box).handOver
  papers : w.service.registry.papers = m.deeds.foldl (Deed.enact m.box.spec.name) w₀.service.registry.papers
  time : w.clock = clock
  backend : w.backend = (m.deeds.filterMap Deed.released?).foldl Backend.release b
  result : w.results.lookup t = some result
  known : ∀ entry ∈ w.results, entry.1 < w.service.registry.nextTask
  next : w.ready = [] ∧ w.service.registry.task? t' = none ∨
    w.ready = [.task t'] ∧ ∃ pid, c.duty t' = some (.post pid) ∧ .watch pid ∈ m.deeds

theorem Underway.known (h : Underway w₀ v slot t c) (hlt : t < v.service.registry.nextTask) (result : Except Fault Unit)
    : ∀ entry ∈ (t, result) :: v.results, entry.1 < v.service.registry.nextTask := by
  intro entry hentry
  rw [List.mem_cons] at hentry
  rcases hentry with rfl | hentry
  . exact hlt
  . exact Nat.lt_trans (h.results entry hentry) hlt

theorem Poised.closes (h : Poised w₀ v slot t c) (hmakes : Makes v.service.registry e slot t op c m)
    {result : Except Fault Unit} (hnext : m.next = .finish result) (previous : Option Timer)
    : ∃ t' c', Done w₀ (v.update (v.service.update (v.service.registry.step e)) previous) slot t m result v.backend
        v.clock t' c' := by
  rcases Registry.changes_step h.changes.tidy hmakes.cell hmakes.place with ⟨hchanges, heffects⟩
  have hpapers := Registry.papers_step h.changes.tidy hmakes.cell hmakes.place
  rw [hmakes.deeds, h.papers, ← hmakes.spec] at hpapers
  have hbefore := h.known (hmakes.lt_nextTask h.changes.tidy) result
  have hknown : ∀ entry ∈ (t, result) :: v.results, entry.1 < (v.service.registry.step e).1.nextTask :=
    fun entry hentry => Nat.lt_of_lt_of_le (hbefore entry hentry) hmakes.nextTask
  have hidle := fun (t' : TaskId) (task : Task) (htask : (v.service.registry.step e).1.task? t' = some task) =>
    idle_finish h.toUnderway hmakes htask
  have hfinishes := hmakes.finishes h.changes.tidy hnext
  generalize c.step v.service.registry.limits v.service.registry.nextTask slot e = out at *
  rcases m.box.exists_rewatch v.service.registry.nextTask m.deeds with ⟨watch, hwatch⟩
  cases hfinishes with
  | quiet box duty effects unwatched =>
    rw [service_update_eq (heffects.trans effects), update_release]
    refine ⟨(v.service.registry.step e).1.nextTask, out.1, ⟨h.changes.trans hchanges, h.closed, h.now, h.agenda, ?_, ?_,
      hknown⟩, ⟨watch, by rw [box, hwatch]⟩, hpapers, rfl, rfl, by simp, hknown,
      .inl ⟨h.ready, hchanges.tidy.task?_nextTask⟩⟩
    . exact fun t' task _ htask => hidle t' task htask fun d hd => duty t' d hd
    . intro f hf _
      have hmem := (List.mem_filter.mp hf).1
      exact (h.dozes f hmem (h.flights f hmem)).same (Backend.same_releases _ _)
  | @armed pid box duty effects post watched kept =>
    rw [service_update_eq (heffects.trans effects), update_wake h.ready]
    refine ⟨v.service.registry.nextTask, out.1, ⟨h.changes.trans hchanges, h.closed, h.now, h.agenda, ?_, ?_, hbefore⟩,
      ⟨watch, by rw [box, hwatch]⟩, hpapers, rfl, by rw [kept]; rfl, by simp, hknown, .inr ⟨rfl, pid, post, watched⟩⟩
    . exact fun t' task hne htask => hidle t' task htask fun d hd => duty t' d hne hd
    . intro f hf _
      have hmem := (List.mem_filter.mp hf).1
      exact h.dozes f hmem (h.flights f hmem)

structure Still (w : World Backend Event) : Prop extends AtRest w where
  ready : w.ready = []
  timers : w.timers = []
  -- Results are there of tasks that were begun only.
  results : ∀ entry ∈ w.results, entry.1 < w.service.registry.nextTask

theorem Backend.poll_awaiting {b : Backend} (h : b.Tidy) {pid : Pid} (halive : b.isAlive pid = true) (clock : Nat)
    : b.poll clock (.awaiting pid) = (b, .awaiting pid) := by
  simp [Backend.poll, Backend.pollServed, Backend.awaited_of_alive h halive]

theorem Backend.poll_wait {b : Backend} (h : b.Tidy) {pid : Pid} (halive : b.isAlive pid = true) (clock : Nat)
    : b.poll clock (.held (.call (.wait pid)) .pass clock) = (b, .awaiting pid) := by
  rcases (Option.any_eq_true ..).mp halive with ⟨p, hp, -⟩
  simp [Backend.poll, Backend.serve, hp, Backend.pollServed, Backend.awaited_of_alive h halive]

theorem still_of_dozes (htidy : w.backend.Tidy) (hready : w.ready = []) (hagenda : w.agenda = [])
    (hidle : ∀ t task, w.service.registry.task? t = some task → ∃ pid, task.duty = .watch pid)
    (hdozes : ∀ f ∈ w.flights, f.Dozes w.backend)
    (hresults : ∀ entry ∈ w.results, entry.1 < w.service.registry.nextTask)
    : w.Still where
  idle := hidle
  waits f hf := by
    rcases (hdozes f hf).awaits with ⟨pid, hpending, halive⟩
    refine ⟨pid, ?_⟩
    rw [hpending]
    exact congrArg Prod.snd (Backend.poll_awaiting htidy halive w.clock)
  ready := hready
  timers := by
    have hnone : w.flights.flatMap (fun f => f.timers.map fun t => (t, (.task f.task : Job Event))) = [] := by
      rw [List.flatMap_eq_nil_iff]
      intro f hf
      rw [(hdozes f hf).timers]
      rfl
    simp [World.timers, hnone, hagenda]
  results := hresults

theorem Still.dozes {limits : Limits} (h : w.Still) (hsane : w.Sane limits) : ∀ f ∈ w.flights, f.Dozes w.backend := by
  intro f hf
  have htimers : f.timers = [] := by
    have hnone := (List.append_eq_nil_iff.mp h.timers).1
    rw [List.flatMap_eq_nil_iff] at hnone
    exact List.map_eq_nil_iff.mp (hnone f hf)
  rcases List.append_eq_nil_iff.mp htimers with ⟨hdue, hdeadline⟩
  rcases hsane.coupled.serves f hf with ⟨task, -, spec, call, bound, -, hstands, -⟩
  rcases h.waits f hf with ⟨pid, hpid⟩
  refine ⟨by simpa using hdeadline, ?_⟩
  have hpolled := Backend.polled_poll hsane.coupled.tidy hstands w.clock
  generalize f.pending = p at hstands hdue hpid hpolled
  cases hstands with
  | held => simp [Pending.due?] at hdue
  | launching => simp [Pending.due?] at hdue
  | @awaiting source =>
    change (w.backend.poll w.clock (.awaiting source)).2 = .awaiting pid at hpid
    generalize w.backend.poll w.clock (.awaiting source) = out at hpid hpolled
    cases hpolled with
    | replied answered => cases hpid
    | stands stands awaits =>
      rcases awaits pid hpid with ⟨heq, halive⟩
      cases heq
      exact ⟨pid, rfl, halive⟩

theorem Still.agenda (h : w.Still) : w.agenda = [] :=
  List.map_eq_nil_iff.mp (List.append_eq_nil_iff.mp h.timers).2

structure Rested (w₀ w : World Backend Event) (slot : Slot) (t : TaskId) (m : Move) (result : Except Fault Unit)
    (b : Backend) (clock : Nat) : Prop where
  still : w.Still
  changes : ∃ c, Registry.Changes w₀.service.registry w.service.registry slot c ∧
    ∃ watch, c.box = ({ m.box with watch } : Box).handOver
  closed : w.service.closed = w₀.service.closed
  papers : w.service.registry.papers = m.deeds.foldl (Deed.enact m.box.spec.name) w₀.service.registry.papers
  time : w.clock = clock
  backend : w.backend = (m.deeds.filterMap Deed.released?).foldl Backend.release b
  result : w.results.lookup t = some result

theorem not_flight_of_duty {limits : Limits} (hsane : w.Sane limits) {task : Task}
    (htask : w.service.registry.task? t = some task) (hcall : ∀ limits spec, task.duty.call? limits spec = none)
    : ∀ f ∈ w.flights, f.task ≠ t := by
  rintro f hf rfl
  rcases hsane.coupled.serves f hf with ⟨task', htask', spec, call, bound, hserves, -⟩
  rw [htask] at htask'
  cases htask'
  rw [hcall] at hserves
  cases hserves

theorem runJob_turn (htidy : w.backend.Tidy) (hflights : ∀ f ∈ w.flights, f.task ≠ t)
    (hdozes : ∀ f ∈ w.flights, f.Dozes w.backend)
    : w.runJob (.task t) = w.update (w.service.update (w.service.registry.step (.turn w.now t))) := by
  have hrun : w.runTask t = w.update (w.service.update (w.service.registry.step (.turn w.now t))) := by
    have hnone : w.flights.find? (fun f => f.task = t) = none := by
      rw [List.find?_eq_none]
      intro f hf
      simpa using hflights f hf
    unfold runTask
    rw [hnone]
    rfl
  change w.noticing (fun w => w.runTask t) = _
  exact noticing_update htidy hrun rfl hdozes

theorem lookup_of_lt {results : List (TaskId × Except Fault Unit)} (h : ∀ entry ∈ results, entry.1 < t)
    : results.lookup t = none := by
  rw [List.lookup_eq_none_iff]
  intro entry hentry
  simpa using Nat.ne_of_gt (h entry hentry)

theorem Registry.makes_post {r : Registry} (hc : r.cell? slot = some c) {pid : Pid} (hduty : c.duty t = some (.post pid))
    (now : Moment)
    : (Registry.Event.turn now t).slot? r = some slot ∧
        c.step r.limits r.nextTask slot (.turn now t) = (c.assign t (.watch pid), [.call t (.wait pid) .unlimited]) ∧
        c.deeds r.limits (.turn now t) = [] ∧ (r.step (.turn now t)).1.nextTask = r.nextTask := by
  have htask := Registry.task?_of_duty hc hduty
  refine ⟨Registry.slot?_of_duty rfl hc hduty, by simp [Cell.step, Cell.turn, hduty],
    by simp [Cell.deeds, Cell.deedsOfTurn, hduty], ?_⟩
  simp only [Registry.step, Registry.run, htask, (Registry.cell?_eq_some.mp hc).1]
  rfl

section Watch

variable {pid : Pid}

theorem task?_of_post (h : Underway w₀ w slot t c) (hduty : c.duty t = some (.post pid)) {t' : TaskId} {task : Task}
    (htask : (w.service.registry.step (.turn w.now t)).1.task? t' = some task)
    : ∃ pid, task.duty = .watch pid := by
  rcases Registry.makes_post h.changes.cell hduty w.now with ⟨hslot, hstep, -⟩
  have hchanges := (Registry.changes_step h.changes.tidy h.changes.cell hslot).1
  rw [hstep] at hchanges
  rcases Registry.task?_of_changes hchanges htask with ⟨-, hd⟩ | ⟨hother, hold⟩
  . rw [Cell.duty_assign] at hd
    split at hd
    . exact ⟨pid, (Option.some.inj hd).symm⟩
    . next hne => exact h.idle t' ⟨slot, task.duty⟩ hne (Registry.task?_of_duty h.changes.cell hd)
  . apply h.idle t' task _ hold
    rintro rfl
    rw [Registry.task?_of_duty h.changes.cell hduty] at hold
    cases hold
    exact hother rfl

theorem Underway.posts (h : Underway w₀ w slot t c) (htidy : w.backend.Tidy) (hduty : c.duty t = some (.post pid))
    (hflights : ∀ f ∈ w.flights, f.task ≠ t)
    : ∃ (s : Service) (f : Flight) (flights : List Flight),
        ({ w with ready := [] } : World Backend Event).runJob (.task t) =
          { w with service := s, serial := w.serial + 1, ready := [.task t], flights } ∧
        s.registry = (w.service.registry.step (.turn w.now t)).1 ∧ s.closed = w.service.closed ∧
        f ∈ flights ∧ f.task = t ∧ f.pending = .held (.call (.wait pid)) .pass w.clock ∧ f.deadline = none ∧
        ∀ g ∈ flights, g ∈ w.flights ∨ g = f := by
  have hdozes : ∀ f ∈ w.flights, f.Dozes w.backend := fun f hf => h.dozes f hf (hflights f hf)
  rcases Registry.makes_post h.changes.cell hduty w.now with ⟨hslot, hstep, -⟩
  rcases Registry.changes_step h.changes.tidy h.changes.cell hslot with ⟨hchanges, heffects⟩
  rw [hstep] at hchanges heffects
  have hjob := runJob_turn (w := { w with ready := [] }) htidy hflights hdozes
  rcases update_call (v := { w with ready := [] }) htidy.scripts
    (w.service.update (w.service.registry.step (.turn w.now t))).1 t (.wait pid) .unlimited none
    with ⟨f, htask, hpending, hdeadline, hupdate⟩
  have hchange : w.service.update (w.service.registry.step (.turn w.now t)) =
      ((w.service.update (w.service.registry.step (.turn w.now t))).1, [.call t (.wait pid) .unlimited]) := by
    rw [show [Effect.call t (.wait pid) .unlimited] = (w.service.registry.step (.turn w.now t)).2 from heffects.symm]
    rfl
  have hwatch : (w.service.registry.step (.turn w.now t)).1.task? t = some ⟨slot, .watch pid⟩ :=
    Registry.task?_of_duty hchanges.cell (by simp [Cell.duty_assign])
  refine ⟨(w.service.update (w.service.registry.step (.turn w.now t))).1, f,
    (w.flights ++ [f]).filter fun f => ((w.service.registry.step (.turn w.now t)).1.task? f.task).isSome, ?_, rfl, rfl,
    ?_, htask, hpending, by simpa [Bound.deadline] using hdeadline, ?_⟩
  . rw [hjob]
    change update _ (w.service.update (w.service.registry.step (.turn w.now t))) = _
    rw [hchange, hupdate]
    rfl
  . refine List.mem_filter.mpr ⟨List.mem_append_right _ (List.mem_singleton_self f), ?_⟩
    rw [htask, hwatch]
    rfl
  . intro g hg
    have hmem := (List.mem_filter.mp hg).1
    rwa [List.mem_append, List.mem_singleton] at hmem

theorem Underway.engaged (h : Underway w₀ w slot t c) (hflights : ∀ f ∈ w.flights, f.task ≠ t) {s : Service} {serial : Nat}
    {ready : List (Job Event)} {f : Flight} {flights : List Flight} (hmem : f ∈ flights) (htask : f.task = t)
    (hothers : ∀ g ∈ flights, g ∈ w.flights ∨ g = f)
    : World.Engaged { w with service := s, serial, ready, flights } t f := by
  refine ⟨h.agenda, hmem, htask, ?_, ?_, lookup_of_lt h.results⟩
  . intro g hg hgt
    exact (hothers g hg).resolve_left fun hold => hflights g hold hgt
  . intro g hg hgt
    rcases hothers g hg with hold | rfl
    . exact h.dozes g hold hgt
    . exact absurd htask hgt

theorem Underway.watches (h : Underway w₀ w slot t c) (htidy : w.backend.Tidy) (hready : w.ready = [.task t])
    (hduty : c.duty t = some (.post pid)) (halive : w.backend.isAlive pid = true)
    (hflights : ∀ f ∈ w.flights, f.task ≠ t) (hknown : ∀ entry ∈ w.results, entry.1 < w.service.registry.nextTask)
    : ∃ w', (∀ t₀ k w'', Runs t₀ k w' w'' → Runs t₀ (k + 2) w w'') ∧ w'.Still ∧
        (∃ c', Registry.Changes w.service.registry w'.service.registry slot c' ∧ c'.box = c.box) ∧
        w'.service.closed = w.service.closed ∧ w'.service.registry.papers = w.service.registry.papers ∧
        w'.clock = w.clock ∧ w'.backend = w.backend ∧ w'.results = w.results := by
  have hc := h.changes.cell
  rcases Registry.makes_post hc hduty w.now with ⟨hslot, hstep, hdeeds, hnext⟩
  have hchanges := (Registry.changes_step h.changes.tidy hc hslot).1
  have hpapers := Registry.papers_step h.changes.tidy hc hslot
  rw [hstep] at hchanges
  rw [hdeeds] at hpapers
  rcases h.posts htidy hduty hflights with
    ⟨s, f, flights, hjob, hregistry, hclosed, hmem, htask, hpending, hdeadline, hothers⟩
  let w₁ : World Backend Event := { w with service := s, serial := w.serial + 1, ready := [.task t], flights }
  have hengaged : w₁.Engaged t f := h.engaged hflights hmem htask hothers
  have hpoll : w₁.backend.poll w₁.clock f.pending = (w₁.backend, .awaiting pid) := by
    rw [hpending]
    exact Backend.poll_wait htidy halive w.clock
  rcases hengaged.runJob_stands hpoll (by simp) (by simp [hdeadline]) with ⟨serial, serial', hstands⟩
  let w₂ : World Backend Event :=
    { w₁ with
      ready := [], serial, flights := w₁.flights.filter (fun g => g.task ≠ t) ++
        [{ f with pending := .awaiting pid, serial := serial' }] }
  refine ⟨w₂, fun t₀ k w'' hruns => ?_, ?_, ⟨c.assign t (.watch pid), by rw [hregistry]; exact hchanges, rfl⟩,
    hclosed, ?_, rfl, rfl, rfl⟩
  . apply Runs.job hready
    rw [hjob]
    apply Runs.job (w := w₁) rfl
    rw [hstands]
    exact hruns
  . apply still_of_dozes (w := w₂) htidy rfl h.agenda
    . intro t' task ht'
      rw [hregistry] at ht'
      exact task?_of_post h hduty ht'
    . intro g hg
      rw [List.mem_append, List.mem_singleton] at hg
      rcases hg with hg | rfl
      . rw [List.mem_filter] at hg
        exact hengaged.dozes g hg.1 (by simpa using hg.2)
      . exact ⟨hdeadline, pid, rfl, halive⟩
    . intro entry hentry
      rw [hregistry, hnext]
      exact hknown entry hentry
  . rw [hregistry, hpapers]
    rfl

end Watch

theorem Done.rests {limits : Limits} {t' : TaskId} {result : Except Fault Unit} {b : Backend} {clock : Nat}
    (h : Done w₀ w slot t m result b clock t' c) (hreach : Reachable limits w)
    (halive : ∀ pid, .watch pid ∈ m.deeds → b.isAlive pid = true)
    : ∃ n w', n ≤ 2 ∧ Runs t n w w' ∧ Rested w₀ w' slot t m result b clock := by
  have hsane := sane_of_reachable hreach
  have htidy := hsane.coupled.tidy
  rcases h.next with ⟨hready, hnone⟩ | ⟨hready, pid, hduty, hwatched⟩
  . have hidle : ∀ t'' task, w.service.registry.task? t'' = some task → t'' ≠ t' := by
      rintro t'' task htask rfl
      rw [hnone] at htask
      cases htask
    refine ⟨0, w, Nat.zero_le 2, .rest hready (by rw [h.result]; rfl), ?_⟩
    refine ⟨?_, ⟨c, h.changes, h.box⟩, h.closed, h.papers, h.time, h.backend, h.result⟩
    apply still_of_dozes htidy hready h.agenda
    . exact fun t'' task htask => h.idle t'' task (hidle t'' task htask) htask
    . intro f hf
      rcases hsane.coupled.serves f hf with ⟨task, htask, -⟩
      exact h.dozes f hf (hidle f.task task htask)
    . exact h.known
  . have htask := Registry.task?_of_duty h.changes.cell hduty
    have hsame := Backend.same_releases b (m.deeds.filterMap Deed.released?)
    have hruns : w.backend.isAlive pid = true := by rw [h.backend, hsame.isAlive, halive pid hwatched]
    rcases h.watches htidy hready hduty hruns (not_flight_of_duty hsane htask fun _ _ => rfl) h.known with
      ⟨w', hsteps, hstill, ⟨c', hchanges, hbox⟩, hclosed, hpapers, htime, hbackend, hresults⟩
    refine ⟨2, w', Nat.le_refl 2, hsteps t 0 w' (.rest hstill.ready (by rw [hresults, h.result]; rfl)), ?_⟩
    refine ⟨hstill, ⟨c', h.changes.trans hchanges, by rw [hbox]; exact h.box⟩, ?_, ?_, ?_, ?_, ?_⟩
    . rw [hclosed, h.closed]
    . rw [hpapers, h.papers]
    . rw [htime, h.time]
    . rw [hbackend, h.backend]
    . rw [hresults, h.result]

end World
end Simulation

end BoxRegistry
