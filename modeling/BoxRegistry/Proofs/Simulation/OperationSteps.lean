import Mathlib.Data.List.Nodup
import BoxRegistry.Proofs.Simulation.LoneOperation

/-!
This module contains the play of an operation: its moves on one box with the replies that a backend in memory gives to
the calls in between, and the backend that comes of it. The play mentions neither a schedule nor any other box, and it is
what an operation comes to in a world that is at rest.
-/

namespace BoxRegistry

open Time (Moment)

namespace Simulation

/--
The play of an operation from a move on, made at a time, with the deadline of the call before it: the backend, the time
and the last move that come of it. The number bounds the looks at calls and the moves of the clock.
-/
inductive Plays (op : Operation) (limits : Limits) (now : Moment) (out : Backend × Nat × Move) :
    Nat → Backend → Nat → Option Nat → Move → Prop where
  | ended {b : Backend} {clock : Nat} {previous : Option Nat} {m : Move} {result : Except Fault Unit}
    (finish : m.next = .finish result) (alive : ∀ pid, .watch pid ∈ m.deeds → b.isAlive pid = true)
    (eq : out = (b, clock, m)) : Plays op limits now out 0 b clock previous m
  | call {n k : Nat} {b : Backend} {clock : Nat} {previous : Option Nat} {m : Move} {stage : Stage}
    {heard : Backend × Reply × Nat} (next : m.next = .wait stage)
    (hears : (b.noteErrand (.call (stage.call m.box.spec))).Hears ((stage.bound limits).deadline clock previous) heard n
      clock (.held (.call (stage.call m.box.spec)) .pass clock))
    (rest : Plays op limits now out k heard.1 heard.2.2 ((stage.bound limits).deadline clock previous)
      (op.proceed limits now (m.box.rewatch 0 m.deeds) stage heard.2.1)) :
    Plays op limits now out (n + k) b clock previous m

namespace Backend

variable {b : Backend} {deadline : Option Nat} {out : Backend × Reply × Nat} {n clock : Nat} {call : Call} {p : Pending}

theorem lives_modifyProcess {f : Process → Process} (hf : ∀ p, (f p).pid = p.pid ∧ (f p).lost = p.lost)
    {pid pid' : Pid} (hspared : pid' = pid → ∀ p, (f p).ending = p.ending) (halive : b.isAlive pid' = true)
    : (b.modifyProcess pid f).isAlive pid' = true := by
  rw [isAlive] at halive ⊢
  rw [process?_modifyProcess hf]
  cases hp : b.process? pid' with
  | none => simp [hp] at halive
  | some p =>
    rw [hp] at halive
    simp only [Option.map_some, Option.any_some] at halive ⊢
    split
    . next hpid =>
      rw [hspared ((pid_of_process? hp).symm.trans hpid) p]
      exact halive
    . exact halive

theorem isAlive_signal {pid pid' : Pid} (hne : pid' ≠ pid) (halive : b.isAlive pid' = true) (signal : Int)
    : (b.signal pid signal).1.isAlive pid' = true := by
  unfold Backend.signal
  split
  . exact halive
  . split
    . exact halive
    . exact lives_modifyProcess (f := fun p => { p with ending := some (.signaled signal) }) (fun _ => ⟨rfl, rfl⟩)
        (fun heq => absurd heq hne) halive

theorem isAlive_setPaused {pid pid' : Pid} (halive : b.isAlive pid' = true) (paused : Bool)
    : (b.setPaused pid paused).1.isAlive pid' = true := by
  unfold setPaused
  split
  . exact halive
  . split
    . exact halive
    . exact lives_modifyProcess (f := fun p => { p with paused }) (fun _ => ⟨rfl, rfl⟩) (fun _ _ => rfl) halive

theorem isAlive_launch {pid : Pid} (halive : b.isAlive pid = true) (order : LaunchOrder)
    : (b.launch order).1.isAlive pid = true := by
  unfold launch
  split
  . exact halive
  . split
    . exact halive
    . unfold isAlive process? at halive ⊢
      rw [List.find?_append]
      cases hp : b.processes.find? fun p => p.pid = pid && !p.lost with
      | none => simp [hp] at halive
      | some p => simpa [hp] using halive

theorem isAlive_poll (hstands : Stands call p) {pid : Pid} (halive : b.isAlive pid = true)
    (hspares : ∀ force, call ≠ .terminate pid force) (clock : Nat)
    : (b.poll clock p).1.isAlive pid = true := by
  have hlaunching : ∀ order due, (b.pollServed clock (.launching order due)).1.isAlive pid = true := by
    intro order due
    simp only [pollServed]
    split
    . exact isAlive_launch halive order
    . exact halive
  cases hstands with
  | launching => exact hlaunching _ _
  | awaiting => exact halive
  | @held due =>
    simp only [poll]
    split
    . cases call with
      | launch order => exact hlaunching order _
      | terminate pid' force =>
        have hne : pid ≠ pid' := fun heq => hspares force (by rw [heq])
        simp only [serve]
        cases force with
        | true =>
          simp only [if_true]
          split
          . exact halive
          . exact isAlive_signal hne halive sigKill
        | false =>
          simp only [Bool.false_eq_true, if_false]
          split
          . exact halive
          . exact isAlive_signal hne halive sigTerm
      | wait pid' =>
        simp only [serve]
        split <;> exact halive
      | pause pid' => exact isAlive_setPaused halive true
      | resume pid' => exact isAlive_setPaused halive false
    . exact halive

theorem stands_poll (h : b.Tidy) (hstands : Stands call p) {p' : Pending} (hpoll : b.poll clock p = (b, p'))
    (hopen : ∀ reply, p' ≠ .replied reply)
    : Stands call p' := by
  have hpolled := polled_poll h hstands clock
  rw [hpoll] at hpolled
  cases hpolled with
  | replied answered => exact absurd rfl (hopen _)
  | stands stands awaits => exact stands

theorem Hears.tidy (h : b.Hears deadline out n clock p) (hb : b.Tidy) (hstands : Stands call p) : out.1.Tidy := by
  induction h with
  | @replied clock p poll time =>
    have hpolled := polled_poll hb hstands clock
    rw [poll] at hpolled
    cases hpolled with
    | replied answered => exact answered.tidy
    | stands stands awaits => cases stands
  | late poll stands expired time =>
    rw [time]
    exact hb
  | later poll stands soon next _ ih => exact ih (stands_poll hb hstands poll stands)

theorem Hears.isAlive (h : b.Hears deadline out n clock p) (hb : b.Tidy) (hstands : Stands call p) {pid : Pid}
    (halive : b.isAlive pid = true) (hspares : ∀ force, call ≠ .terminate pid force)
    : out.1.isAlive pid = true := by
  induction h with
  | @replied clock p poll time =>
    have hpoll := isAlive_poll hstands halive hspares clock
    rwa [poll] at hpoll
  | late poll stands expired time =>
    rw [time]
    exact halive
  | later poll stands soon next _ ih => exact ih (stands_poll hb hstands poll stands)

end Backend

namespace World

variable {w₀ w : World Backend Event} {limits : Limits} {slot : Slot} {t : TaskId} {op : Operation} {c : Cell}
  {m : Move}

theorem Underway.queue (h : Underway w₀ w slot t c) (hsound : c.Sound)
    (hholder : c.box.holder = none ∨ c.box.holder = some t)
    : c.box.queue = [] := by
  rcases hholder with hnone | hsome
  . exact hsound.idle hnone
  . rw [List.eq_nil_iff_forall_not_mem]
    intro t' ht'
    have hne : t' ≠ t := by
      rintro rfl
      exact hsound.apart t' ht' hsome
    rcases hsound.queue t' ht' with ⟨d, hd, hcontends⟩
    rcases h.idle t' _ hne (Registry.task?_of_duty h.changes.cell hd) with ⟨pid, hwatch⟩
    cases hwatch
    cases hcontends

theorem Underway.spares (h : Underway w₀ w slot t c) (hsane : w.Sane limits) {stage : Stage}
    (hduty : c.duty t = some (.work op stage)) {pid : Pid} {spec : Spec} {force : Bool}
    (hcall : stage.call spec = .terminate pid force) {f : Flight} (hf : f ∈ w.flights) (hne : f.task ≠ t)
    : f.pending ≠ .awaiting pid := by
  intro hpending
  have hsound := Registry.sound_of_reachable hsane.reachable h.changes.cell
  have hfits : c.box.Runs pid ∧ c.box.watch = none := by
    have := hsound.fits t op stage hduty
    cases stage <;> cases hcall <;> exact this.2
  rcases hsane.coupled.serves f hf with ⟨task, htask, spec', call, bound, hserves, hstands, -⟩
  rcases h.idle f.task task hne htask with ⟨pid', hwatch⟩
  rcases task with ⟨slot', d⟩
  cases hwatch
  cases hserves
  rw [hpending] at hstands
  cases hstands
  rcases Registry.exists_cell? (List.getElem?_eq_getElem (h.changes.tidy.housed _ _ htask)) with ⟨c', hc', -⟩
  have hduty' : c'.duty f.task = some (.watch pid) := by
    rw [← (Registry.cell?_eq_some.mp hc').2, Registry.duty?_eq_some, htask]
  have hsound' := Registry.sound_of_reachable hsane.reachable hc'
  have hwatch' := hsound'.vigil f.task _ hduty' rfl
  rcases hsound'.watch f.task _ hwatch' hduty' with ⟨pid', hpid', hrecord⟩
  cases hpid'
  -- The watch is not one on this box, which has none, nor on another one, whose process is another.
  obtain rfl := hsane.coupled.unique slot slot' c c' pid h.changes.cell hc' hfits.1.pid hrecord
  rw [h.changes.cell] at hc'
  cases hc'
  rw [hfits.2] at hwatch'
  cases hwatch'

structure After (limits : Limits) (w₀ w : World Backend Event) (slot : Slot) (t : TaskId) (op : Operation) (m : Move)
    (b : Backend) (clock : Nat) (previous : Option Nat) : Prop where
  waits : ∀ stage, m.next = .wait stage → ∃ c,
    Asking w₀ w slot t op stage c b clock ((stage.bound limits).deadline clock previous) ∧
      c.box = m.box.rewatch 0 m.deeds
  closes : ∀ result, m.next = .finish result → ∃ t' c, Done w₀ w slot t m result b clock t' c

theorem Poised.after {v : World Backend Event} {e : Registry.Event} (h : Poised w₀ v slot t c)
    (hmakes : v.service.registry.Makes e slot t op c m) (previous : Option Timer)
    : After v.service.registry.limits w₀ (v.update (v.service.update (v.service.registry.step e)) previous) slot t op m
        v.backend v.clock (previous.map Timer.due) where
  waits _ hnext := h.asks hmakes hnext previous
  closes _ hnext := h.closes hmakes hnext previous

theorem Asking.hears {stage : Stage} {b : Backend} {clock n : Nat} {deadline : Option Nat}
    {heard : Backend × Reply × Nat} (h : Asking w₀ w slot t op stage c b clock deadline) (hreach : Reachable limits w)
    (hhears : (b.noteErrand (.call (stage.call c.box.spec))).Hears deadline heard n clock
      (.held (.call (stage.call c.box.spec)) .pass clock))
    : ∃ w', Reachable limits w' ∧ (∀ k w'', Runs t k w' w'' → Runs t (n + k) w w'') ∧
        After w₀.service.registry.limits w₀ w' slot t op
          (op.proceed w₀.service.registry.limits w₀.now c.box stage heard.2.1) heard.1 heard.2.2 deadline := by
  have hsane := sane_of_reachable hreach
  have hsound := Registry.sound_of_reachable hsane.reachable h.changes.cell
  have htidy : (b.noteErrand (.call (stage.call c.box.spec))).Tidy := by
    rw [← h.backend]
    exact hsane.coupled.tidy
  have hout := hhears.tidy htidy .held
  rcases h.flight with ⟨f, hf, hftask, hfpending, hfdeadline⟩
  have hengaged : w.Engaged t f := by
    refine ⟨h.agenda, hf, hftask, ?_, h.dozes, lookup_of_lt h.results⟩
    intro g hg hgtask
    exact List.inj_on_of_nodup_map hsane.coupled.single hg hf (by rw [hgtask, hftask])
  have hdozes : ∀ g ∈ w.flights, g.task ≠ t → g.Dozes heard.1 := by
    intro g hg hne
    rcases (h.dozes g hg hne).awaits with ⟨pid, hpending, halive⟩
    refine ⟨(h.dozes g hg hne).deadline, pid, hpending, ?_⟩
    rw [h.backend] at halive
    exact hhears.isAlive htidy .held halive fun force hcall => h.spares hsane h.duty hcall hg hne hpending
  rcases hengaged.runs_hearing hhears h.backend hfdeadline hfpending h.time h.ready hout hdozes with
    ⟨serial, hreachable, hruns⟩
  refine ⟨_, hreachable limits hreach, hruns, ?_⟩
  let v : World Backend Event :=
    { w with
      clock := heard.2.2, serial, ready := [], backend := heard.1, flights := w.flights.filter fun g => g.task ≠ t }
  have hothers : ∀ g ∈ v.flights, g ∈ w.flights ∧ g.task ≠ t := by
    intro g hg
    rw [List.mem_filter] at hg
    exact ⟨hg.1, by simpa using hg.2⟩
  have hpoised : Poised w₀ v slot t c := by
    refine ⟨⟨h.changes, h.closed, h.now, h.agenda, h.idle, ?_, h.results⟩, h.papers, rfl, ?_, hout.scripts⟩
    . exact fun g hg hne => hdozes g (hothers g hg).1 hne
    . exact fun g hg => (hothers g hg).2
  have hmakes := Registry.makes_proceed h.changes.cell hsound h.duty
    (h.queue hsound (.inr (hsound.worker t op stage h.duty))) w.now heard.2.1
  have hafter := hpoised.after hmakes f.deadline
  rw [hfdeadline, show v.service.registry.limits = w₀.service.registry.limits from h.changes.limits] at hafter
  rw [← h.now]
  exact hafter

theorem runs_of_plays (w₀ : World Backend Event) {out : Backend × Nat × Move} {n : Nat} {b : Backend} {clock : Nat}
    {previous : Option Nat}
    (h : Plays op w₀.service.registry.limits w₀.now out n b clock previous m) (hreach : Reachable limits w)
    (hafter : After w₀.service.registry.limits w₀ w slot t op m b clock previous)
    : ∃ k w' result, k ≤ n + 2 ∧ Runs t k w w' ∧ out.2.2.next = .finish result ∧
        Rested w₀ w' slot t out.2.2 result out.1 out.2.1 := by
  induction h generalizing w with
  | @ended b clock previous m result finish alive eq =>
    subst eq
    rcases hafter.closes result finish with ⟨t', c, hdone⟩
    rcases hdone.rests hreach alive with ⟨k, w', hk, hruns, hrested⟩
    exact ⟨k, w', result, by omega, hruns, finish, hrested⟩
  | @call n k b clock previous m stage heard next hears rest ih =>
    rcases hafter.waits stage next with ⟨c, hasking, hbox⟩
    have hspec : c.box.spec = m.box.spec := by
      rcases m.box.exists_rewatch 0 m.deeds with ⟨watch, heq⟩
      rw [hbox, heq]
    rw [← hspec] at hears
    rcases hasking.hears hreach hears with ⟨w', hreach', hruns', hafter'⟩
    rw [hbox] at hafter'
    rcases ih hreach' hafter' with ⟨j, w'', result, hj, hruns, hfinish, hrested⟩
    exact ⟨n + j, w'', result, by omega, hruns' j w'' hruns, hfinish, hrested⟩

section Begin

variable {key : String} {now : Moment}

theorem AtRest.unheld (h : w.AtRest) (hsane : w.Sane limits) (hc : w.service.registry.cell? slot = some c)
    : c.box.holder = none := by
  have hsound := Registry.sound_of_reachable hsane.reachable hc
  cases hholder : c.box.holder with
  | none => rfl
  | some t =>
    rcases hsound.holder t hholder with ⟨d, hd, hvigil⟩
    rcases h.idle t _ (Registry.task?_of_duty hc hd) with ⟨pid, hwatch⟩
    cases hwatch
    cases hvigil

theorem operate_of_lookup (hready : w.ready = []) (hopen : w.service.closed = false)
    (hlookup : w.service.registry.lookup key = .ok slot) (op : Operation)
    : w.operate key op =
        ({ w with
            service := { w.service with registry := (w.service.registry.begin slot op).2.1 },
            ready := [.task w.service.registry.nextTask],
            flights := w.flights.filter fun f => ((w.service.registry.begin slot op).2.1.task? f.task).isSome },
          .operation w.service.registry.nextTask) := by
  have hbegin : w.service.begin key op = .ok (w.service.registry.nextTask,
      { w.service with registry := (w.service.registry.begin slot op).2.1 }, [.wake w.service.registry.nextTask]) := by
    simp only [Service.begin, Service.gate, hopen, hlookup]
    rfl
  simp only [operate, hbegin]
  simp [update, perform, enqueue, hready]

theorem Still.poised (h : w.Still) (hreach : Reachable limits w) (hopen : w.service.closed = false)
    (hlookup : w.service.registry.lookup key = .ok slot) (hc : w.service.registry.cell? slot = some c) (op : Operation)
    : Poised w { (w.operate key op).1 with ready := [] } slot w.service.registry.nextTask
        (c.assign w.service.registry.nextTask (.enter op)) := by
  have hsane := sane_of_reachable hreach
  have htidy := Registry.tidy_of_reachable hsane.reachable
  have hsane' := sane_of_reachable (hreach.step (.begin 0 (.operate (.text key) op)))
  rw [show (w.beginWish 0 (.operate (.text key) op)).1 = (w.operate key op).1 from rfl] at hsane'
  have hbegun : (w.service.registry.step (.begin slot op)).1 = (w.service.registry.begin slot op).2.1 := by
    simp [Registry.step, Registry.lt_of_lookup hlookup]
  have hchanges := (Registry.changes_step (e := .begin slot op) htidy hc rfl).1
  rw [hbegun, show c.step _ w.service.registry.nextTask slot (.begin slot op) =
    (c.assign w.service.registry.nextTask (.enter op), [.wake w.service.registry.nextTask]) by simp [Cell.step]]
    at hchanges
  rw [operate_of_lookup h.ready hopen hlookup op] at hsane' ⊢
  have hduty := Registry.task?_of_duty hchanges.cell
    (show (c.assign w.service.registry.nextTask (.enter op)).duty w.service.registry.nextTask = some (.enter op) by
      simp [Cell.duty_assign])
  have hflights := not_flight_of_duty hsane' hduty fun _ _ => rfl
  refine ⟨⟨hchanges, rfl, rfl, h.agenda, ?_, ?_, h.results⟩, rfl, rfl, hflights, hsane.coupled.tidy.scripts⟩
  . intro t' task hne htask
    apply h.idle t' task
    simpa [Registry.task?_begin, hne] using htask
  . intro f hf _
    exact h.dozes hsane f (List.mem_filter.mp hf).1

theorem Still.step_of_plays (h : w.Still) (hreach : Reachable limits w) (hopen : w.service.closed = false)
    (hlookup : w.service.registry.lookup key = .ok slot) (hc : w.service.registry.cell? slot = some c)
    {out : Backend × Nat × Move} {n : Nat} (hn : n + 3 < endurance)
    (hplays : Plays op w.service.registry.limits now out n w.backend w.clock none
      (op.enter { c.box with holder := some w.service.registry.nextTask }))
    : ∃ w' result, w.step now [(.operate (.text key) op, none)] = (w', [(.ofUnit result, out.2.1 - w.clock)]) ∧
        out.2.2.next = .finish result ∧ Reachable limits w' ∧
        Rested { w with now } w' slot w.service.registry.nextTask out.2.2 result out.1 out.2.1 := by
  have hnow : Reachable limits { w with now } := reachable_of_arranged hreach rfl rfl rfl (Nat.le_refl _)
  have hstill : ({ w with now } : World Backend Event).Still := ⟨⟨h.idle, h.waits⟩, h.ready, h.timers, h.results⟩
  have hsane := sane_of_reachable hnow
  have hoperate := operate_of_lookup (w := { w with now }) hstill.ready hopen hlookup op
  have hpoised := hstill.poised hnow hopen hlookup hc op
  have hbegun : Reachable limits (({ w with now } : World Backend Event).operate key op).1 :=
    hnow.step (.begin 0 (.operate (.text key) op))
  rw [hoperate] at hpoised hbegun
  let v : World Backend Event :=
    { w with
      now, ready := [], service := { w.service with registry := (w.service.registry.begin slot op).2.1 },
      flights := w.flights.filter fun f => ((w.service.registry.begin slot op).2.1.task? f.task).isSome }
  change Poised _ v _ _ _ at hpoised
  have hnone := hstill.unheld hsane hc
  have hqueue := (Registry.sound_of_reachable hsane.reachable hc).idle hnone
  have hmakes := Registry.makes_enter hpoised.changes.cell
    (show (c.assign w.service.registry.nextTask (.enter op)).duty w.service.registry.nextTask = some (.enter op) by
      simp [Cell.duty_assign]) hnone hqueue now
  have hjob := runJob_turn (t := w.service.registry.nextTask) (w := v) hsane.coupled.tidy hpoised.flights
    fun f hf => hpoised.dozes f hf (hpoised.flights f hf)
  have hafter := hpoised.after hmakes none
  rw [← hjob] at hafter
  rcases runs_of_plays { w with now } hplays (reachable_runJob (reachable_of_idle hbegun) _) hafter with
    ⟨k, w', result, hk, hruns, hfinish, hrested⟩
  have hall : Runs w.service.registry.nextTask (k + 1) { v with ready := [.task w.service.registry.nextTask] } w' :=
    .job rfl hruns
  refine ⟨w', result, ?_, hfinish, hall.reachable hbegun, hrested⟩
  rw [step_of_runs hoperate hall hrested.result (by omega), hrested.time]

end Begin

end World

end Simulation

end BoxRegistry
