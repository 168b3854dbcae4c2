import Mathlib.Data.Set.Function
import BoxRegistry.Proofs.Simulation.Run

namespace BoxRegistry

def Registry.pid? (r : Registry) (slot : Slot) : Option Pid :=
  r.boxes[slot]?.bind fun b => b.record.pid

theorem Registry.pid?_of_cell? {r : Registry} {slot : Slot} {c : Cell} (hc : r.cell? slot = some c)
    : r.pid? slot = c.box.record.pid := by
  simp [pid?, (cell?_eq_some.mp hc).1]

namespace Simulation

namespace World

variable {w : World Backend Event} {limits : Limits}

/--
A world is at rest: no operation is in flight, and tasks do nothing but wait for processes that do not end.
-/
structure AtRest (w : World Backend Event) : Prop where
  idle : ∀ t task, w.service.registry.task? t = some task → ∃ pid, task.duty = .watch pid
  waits : ∀ f ∈ w.flights, ∃ pid, (Engine.poll w.backend w.clock f.pending).2 = .awaiting pid

theorem AtRest.isAlive (h : w.AtRest) (hsane : w.Sane limits) {t : TaskId} {slot : Slot} {pid : Pid}
    (htask : w.service.registry.task? t = some ⟨slot, .watch pid⟩)
    : w.backend.isAlive pid = true := by
  rcases hsane.coupled.waits t _ htask rfl with ⟨f, hf, rfl⟩
  rcases hsane.coupled.serves f hf with ⟨task, htask', spec, call, bound, hcall, hstands, -⟩
  rw [htask] at htask'
  cases htask'
  cases hcall
  rcases h.waits f hf with ⟨pid', hawaits⟩
  change (w.backend.poll w.clock f.pending).2 = .awaiting pid' at hawaits
  have hpolled := Backend.polled_poll hsane.coupled.tidy hstands w.clock
  generalize w.backend.poll w.clock f.pending = out at hpolled hawaits
  cases hpolled with
  | replied answered => cases hawaits
  | stands stands awaits =>
    rcases awaits pid' hawaits with ⟨heq, halive⟩
    cases heq
    exact halive

theorem AtRest.runs (h : w.AtRest) (hsane : w.Sane limits) {slot : Slot} {c : Cell}
    (hc : w.service.registry.cell? slot = some c) (hactive : c.box.record.status.isActive = true)
    : ∃ pid, c.box.record.pid = some pid ∧ w.backend.isAlive pid = true := by
  have hsound := Registry.sound_of_reachable hsane.reachable hc
  have hguarded := Registry.guarded_of_reachable hsane.reachable hc
  have hduty : ∀ t d, c.duty t = some d → ∃ pid, d = .watch pid :=
    fun t d hd => h.idle t ⟨slot, d⟩ (Registry.task?_of_duty hc hd)
  have hidle : c.box.holder = none := by
    cases hholder : c.box.holder with
    | none => rfl
    | some t =>
      rcases hsound.holder t hholder with ⟨d, hd, hvigil⟩
      rcases hduty t d hd with ⟨pid, rfl⟩
      cases hvigil
  rcases Registry.watcher_of_idle hc hsound hguarded hidle hactive with ⟨pid, t, hpid, hwatcher⟩
  refine ⟨pid, hpid, ?_⟩
  rcases (hwatcher t pid).mpr ⟨rfl, rfl⟩ with ⟨d, htask, hwatched, -⟩
  rcases h.idle t _ htask with ⟨pid', rfl⟩
  cases hwatched
  exact h.isAlive hsane htask

theorem mapsTo_pid? (hsane : w.Sane limits) (h : w.AtRest)
    : Set.MapsTo w.service.registry.pid? {slot | slot ∈ w.service.registry.active}
      (some '' {pid | w.backend.isAlive pid = true}) := by
  intro slot hslot
  rcases Registry.mem_active.mp hslot with ⟨c, hc, -, hactive⟩
  rcases h.runs hsane hc hactive with ⟨pid, hpid, halive⟩
  exact ⟨pid, halive, by rw [Registry.pid?_of_cell? hc, hpid]⟩

theorem injOn_pid? (hsane : w.Sane limits)
    : Set.InjOn w.service.registry.pid? {slot | slot ∈ w.service.registry.active} := by
  intro slot hslot slot' hslot' heq
  rcases Registry.mem_active.mp hslot with ⟨c, hc, -, hactive⟩
  rcases Registry.mem_active.mp hslot' with ⟨c', hc', -⟩
  rcases (Registry.sound_of_reachable hsane.reachable hc).coherent.exists_runs hactive with ⟨pid, hruns⟩
  rw [Registry.pid?_of_cell? hc, Registry.pid?_of_cell? hc', hruns.pid] at heq
  exact hsane.coupled.unique slot slot' c c' pid hc hc' hruns.pid heq.symm

theorem surjOn_pid? (hsane : w.Sane limits)
    : Set.SurjOn w.service.registry.pid? {slot | slot ∈ w.service.registry.active}
      (some '' {pid | w.backend.isAlive pid = true}) := by
  rintro p ⟨pid, halive, rfl⟩
  rcases hsane.coupled.owned pid halive with ⟨slot, c, hc, hruns⟩
  refine ⟨slot, Registry.mem_active.mpr ⟨c, hc, hruns.listed, hruns.active⟩, ?_⟩
  rw [Registry.pid?_of_cell? hc, hruns.pid]

/--
In a world at rest the boxes that are active and the processes that are alive belong together one to one.
-/
theorem ownership_is_exact (h : Reachable limits w) (hrest : w.AtRest)
    : Set.BijOn w.service.registry.pid? {slot | slot ∈ w.service.registry.active}
      (some '' {pid | w.backend.isAlive pid = true}) :=
  have hsane := sane_of_reachable h
  ⟨mapsTo_pid? hsane hrest, injOn_pid? hsane, surjOn_pid? hsane⟩

theorem atRest_of_watches (watches : List (TaskId × Slot × Pid)) (pids : List Pid)
    (htasks : w.service.registry.tasks = watches.map fun (t, slot, pid) => (t, ⟨slot, .watch pid⟩))
    (hpolls : w.flights.map (fun f => (Engine.poll w.backend w.clock f.pending).2) = pids.map .awaiting)
    : w.AtRest where
  idle t task ht := by
    rw [Registry.task?, htasks] at ht
    rcases List.lookup_eq_some_iff.mp ht with ⟨before, after, heq, -⟩
    have hmem : (t, task) ∈ watches.map fun (t, slot, pid) => (t, (⟨slot, .watch pid⟩ : Task)) := by simp [heq]
    rcases List.mem_map.mp hmem with ⟨⟨t', slot, pid⟩, -, hwatch⟩
    cases hwatch
    exact ⟨pid, rfl⟩
  waits f hf := by
    have hmem := List.mem_map_of_mem (f := fun f : Flight => (Engine.poll w.backend w.clock f.pending).2) hf
    rw [hpolls] at hmem
    rcases List.mem_map.mp hmem with ⟨pid, -, heq⟩
    exact ⟨pid, heq.symm⟩

def bothRun : World Backend Event :=
  let w := ((start {} false).beginWish 0 (.create { image := "alpine" } (some (.text "web")))).1
  let w := (w.beginWish 0 (.create { image := "alpine" } (some (.text "db")))).1
  let w := (w.beginWish 0 (.operate (.text "web") .start)).1
  let w := (w.beginWish 0 (.operate (.text "db") .start)).1
  let w := (((w.runTask 0).runTask 0).runTask 1).runTask 1
  (((w.runTask 2).runTask 2).runTask 3).runTask 3

theorem reachable_bothRun : Reachable {} bothRun := by
  have hstart : Reachable {} (start {} false) := .start false
  have hweb := hstart.step (.begin 0 (.create { image := "alpine" } (some (.text "web"))))
  have hboth := hweb.step (.begin 0 (.create { image := "alpine" } (some (.text "db"))))
  have hbegun := hboth.step (.begin 0 (.operate (.text "web") .start))
  have hbegun' := hbegun.step (.begin 0 (.operate (.text "db") .start))
  have hlaunched := (((hbegun'.step (.turn 0)).step (.turn 0)).step (.turn 1)).step (.turn 1)
  exact (((hlaunched.step (.turn 2)).step (.turn 2)).step (.turn 3)).step (.turn 3)

/--
Of two boxes that run one is to be removed by force, and its process cannot be killed.
-/
def spared : World Backend Event :=
  let w := { bothRun with backend := { bothRun.backend with refusesKill := true } }
  let w := (w.beginWish 0 (.operate (.text "web") (.remove true))).1
  ((((w.runTask 4).runTask 4).runTask 4).runTask 5).runTask 5

theorem reachable_spared : Reachable {} spared := by
  have hrefuses := reachable_bothRun.step (.setUp none 0 false false true)
  have hremoved := hrefuses.step (.begin 0 (.operate (.text "web") (.remove true)))
  exact ((((hremoved.step (.turn 4)).step (.turn 4)).step (.turn 4)).step (.turn 5)).step (.turn 5)

theorem ownership_is_exact_spared
    : spared.results.lookup 4 = some (.error (.stopFailed "engine error: kill of pid 10000 not permitted")) ∧
      spared.service.registry.active = [0, 1] ∧ spared.service.registry.pid? 0 = some 10000 ∧
      spared.service.registry.pid? 1 = some 10001 ∧
      Set.BijOn spared.service.registry.pid? {slot | slot ∈ spared.service.registry.active}
        (some '' {pid | spared.backend.isAlive pid = true}) := by
  -- The watch on the box that was to be removed is the younger one.
  have hrest : spared.AtRest := atRest_of_watches [(5, 0, 10000), (3, 1, 10001)] [10001, 10000] rfl rfl
  exact ⟨rfl, rfl, rfl, rfl, ownership_is_exact reachable_spared hrest⟩

end World

end Simulation

end BoxRegistry
