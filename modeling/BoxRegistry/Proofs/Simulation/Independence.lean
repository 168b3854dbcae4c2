import Mathlib.Data.List.Forall2
import Mathlib.Logic.Equiv.Basic
import BoxRegistry.Proofs.Registry.Ledger
import BoxRegistry.Proofs.Registry.Table
import BoxRegistry.Proofs.Simulation.OperationOutcome

namespace BoxRegistry

open Time (Moment)

structure Record.Resembles (σ : Equiv.Perm Pid) (r r' : Record) : Prop where
  status : r'.status = r.status
  pid : r'.pid = r.pid.map σ
  ending : r'.ending = r.ending
  started : r'.startedAt.isSome = r.startedAt.isSome
  ended : r'.endedAt.isSome = r.endedAt.isSome

structure Box.Resembles (σ : Equiv.Perm Pid) (b b' : Box) : Prop where
  spec : b'.spec = b.spec
  record : b.record.Resembles σ b'.record
  sample : b'.sample = b.sample
  removed : b'.removed = b.removed

theorem Record.Resembles.of_known {σ : Equiv.Perm Pid} {r : Record} (h : ∀ pid, r.pid = some pid → σ pid = pid)
    : r.Resembles σ r where
  status := rfl
  pid := by
    cases hpid : r.pid with
    | none => rfl
    | some pid => rw [Option.map_some, h pid hpid]
  ending := rfl
  started := rfl
  ended := rfl

theorem Box.Resembles.of_known {σ : Equiv.Perm Pid} {b : Box} (h : ∀ pid, b.record.pid = some pid → σ pid = pid)
    : b.Resembles σ b :=
  ⟨rfl, .of_known h, rfl, rfl⟩

theorem countP_of_resembles {σ : Equiv.Perm Pid} {p : Box → Bool} (hp : ∀ b b', b.Resembles σ b' → p b' = p b)
    {boxes boxes' : List Box} (h : List.Forall₂ (Box.Resembles σ) boxes boxes')
    : boxes'.countP p = boxes.countP p := by
  induction h with
  | nil => rfl
  | cons hbox _ ih => rw [List.countP_cons, List.countP_cons, ih, hp _ _ hbox]

theorem Registry.counters_of_resembles {limits limits' : Limits} {allowed : Registry → Registry.Event → Prop}
    {r r' : Registry} {σ : Equiv.Perm Pid} (hr : Reachable limits allowed r) (hr' : Reachable limits' allowed r')
    (h : List.Forall₂ (Box.Resembles σ) r.boxes r'.boxes)
    : r'.counters = r.counters := by
  have hmeter : ∀ {get kind reached}, Meter get kind reached → (∀ b b', b.Resembles σ b' → reached b' = reached b) →
      get r'.counters = get r.counters := by
    intro get kind reached hmeter hreached
    rw [hmeter.reads hr, hmeter.reads hr', countP_of_resembles hreached h]
  have hcreated := hmeter meter_created fun _ _ _ => rfl
  have hstarted := hmeter meter_started fun b b' hb => hb.record.started
  have hstopped := hmeter meter_stopped fun b b' hb => by simp only [Box.hasStatus, hb.record.status]
  have hexited := hmeter meter_exited fun b b' hb => by simp only [Box.hasStatus, hb.record.status]
  have hfailed := hmeter meter_failed fun b b' hb => by simp only [Box.hasStatus, hb.record.status]
  have hremoved := hmeter meter_removed fun b b' hb => hb.removed
  have hactive : r'.counters.active = r.counters.active := by
    rw [gauge_of_reachable hr, gauge_of_reachable hr']
    exact countP_of_resembles (fun b b' hb => by rw [hb.record.status]) h
  cases hk : r.counters
  cases hk' : r'.counters
  simp_all

namespace Simulation

def Note.pid? : Note → Option Pid
  | terminate pid _ | pause pid | resume pid | release pid => some pid
  | launch _ | shutdown => none

def Process.renumber (σ : Equiv.Perm Pid) (p : Process) : Process :=
  { p with pid := σ p.pid }

namespace Backend

def callsFor (b : Backend) (pid : Pid) : List Note :=
  b.notes.filter fun n => n.pid? = some pid

def launchesOf (b : Backend) (id : BoxId) : List Note :=
  b.notes.filter fun n => n = .launch id

end Backend

/--
Two worlds that differ in readings of the clock and in the numbering of processes only. Calls are never made for a
process whose number differs.
-/
structure World.Resembles (σ : Equiv.Perm Pid) (w w' : World Backend Event) : Prop where
  boxes : List.Forall₂ (Box.Resembles σ) w.service.registry.boxes w'.service.registry.boxes
  names : w'.service.registry.names = w.service.registry.names
  counters : w'.service.registry.counters = w.service.registry.counters
  processes : (w.backend.processes.map (Process.renumber σ)).Perm w'.backend.processes
  calls : ∀ pid, w'.backend.callsFor pid = w.backend.callsFor pid
  launches : ∀ id, w'.backend.launchesOf id = w.backend.launchesOf id
  clock : w'.clock = w.clock

namespace Edit

variable {σ : Equiv.Perm Pid} {r : Record} {e : Edit} {pid pid' : Pid}

theorem resembles_apply (hr : r.Resembles σ r) (hpid : e = .run → pid' = σ pid) (now now' : Moment)
    : (e.apply now pid r).Resembles σ (e.apply now' pid' r) := by
  cases e with
  | keep => exact hr
  | run => exact ⟨rfl, congrArg some (hpid rfl), hr.ending, rfl, hr.ended⟩
  | turn status => exact ⟨rfl, hr.pid, hr.ending, hr.started, hr.ended⟩
  | finish status ending => exact ⟨rfl, rfl, rfl, hr.started, rfl⟩

end Edit

namespace World

variable {w w' : World Backend Event} {limits : Limits} {slot : Slot} {box : Box} {f : Fate} {now : Moment}

structure Befalls (w w' : World Backend Event) (slot : Slot) (box : Box) (f : Fate) (now : Moment) : Prop where
  reachable : ∃ limits, Reachable limits w'
  still : w'.Still
  closed : w'.service.closed = w.service.closed
  limits : w'.service.registry.limits = w.service.registry.limits
  length : w'.service.registry.boxes.length = w.service.registry.boxes.length
  others : ∀ i, i ≠ slot → w'.service.registry.boxes[i]? = w.service.registry.boxes[i]?
  own : ∃ box', w'.service.registry.boxes[slot]? = some box' ∧ box'.spec = box.spec ∧
    box'.record = f.edit.apply now w.backend.nextPid box.record ∧ box'.sample = f.edit.sample box.sample ∧
    box'.removed = (f.removes || box.removed)
  names : w'.service.registry.names =
    if f.removes then w.service.registry.names.filter fun entry => some entry.1 ≠ box.spec.name
    else w.service.registry.names
  backend : w'.backend = f.backend box w.backend
  clock : w'.clock = w.clock + f.elapsed

theorem Still.step_of_fate (h : w.Still) (hreach : Reachable limits w) (hopen : w.service.closed = false)
    {key : String} (hlookup : w.service.registry.lookup key = .ok slot) (hbox : w.service.registry.boxes[slot]? = some box)
    (op : Operation) (now : Moment)
    : ∃ w', w.step now [(.operate (.text key) op, none)] =
          (w', [(.ofUnit (w.backend.fate w.service.registry.limits box op).result,
            (w.backend.fate w.service.registry.limits box op).elapsed)]) ∧
        Befalls w w' slot box (w.backend.fate w.service.registry.limits box op) now := by
  have hsane := sane_of_reachable hreach
  have hindexed := Registry.indexed_of_reachable hsane.reachable
  rcases Registry.exists_cell? hbox with ⟨c, hc, rfl⟩
  have hlisted : c.box.removed = false := by
    rcases (Registry.lookup_eq_ok_iff hindexed).mp hlookup with ⟨spec, hlists, -⟩
    exact ((Registry.lists_cell hc).mp hlists).1
  have hfate := w.backend.fate_congr w.service.registry.limits c.box op w.backend.nextPid w.backend.processes
    w.backend.notes (some w.service.registry.nextTask)
  let held : Box := { c.box with holder := some w.service.registry.nextTask }
  have htold : (w.backend.fate w.service.registry.limits held op).Told 15 op w.service.registry.limits now held w.backend
      w.clock none (op.enter held) := by
    apply Fate.told_enter hsane.coupled.tidy
    . exact hlisted
    . exact h.runs hsane hc
  rcases htold with ⟨n, out, hn, hplays, hmeets⟩
  rw [show w.backend.fate w.service.registry.limits held op = w.backend.fate w.service.registry.limits c.box op from
    hfate] at hmeets
  generalize w.backend.fate w.service.registry.limits c.box op = f at hmeets
  have hend : n + 3 < endurance := Nat.lt_of_le_of_lt (Nat.add_le_add_right hn 3) (by decide)
  rcases h.step_of_plays hreach hopen hlookup hc hend hplays with ⟨w', result, hstep, hfinish, hreach', hrested⟩
  have hresult : result = f.result := by
    rw [hmeets.next] at hfinish
    exact (Next.finish.inj hfinish).symm
  have helapsed : out.2.1 - w.clock = f.elapsed := by rw [hmeets.time, Nat.add_sub_cancel_left]
  refine ⟨w', by rw [hstep, hresult, helapsed], ?_⟩
  rcases hrested.changes with ⟨c', hchanges, watch, hbox'⟩
  refine ⟨⟨limits, hreach'⟩, hrested.still, hrested.closed, hchanges.limits, hchanges.length,
    fun i hi => hchanges.box_other hi, ⟨c'.box, hchanges.box, ?_⟩, ?_, ?_, ?_⟩
  . rw [hbox']
    exact ⟨hmeets.spec, hmeets.record, hmeets.sample, hmeets.removed⟩
  . have hnames : w'.service.registry.names = (w'.service.registry.papers).names := rfl
    rw [hnames, hrested.papers, Deed.names_enact, hmeets.spec]
    simp only [hmeets.unlists]
    rfl
  . rw [hrested.backend]
    exact hmeets.backend
  . rw [hrested.time, hmeets.time]

theorem Befalls.resembles {u u' : World Backend Event} {now' : Moment} {σ : Equiv.Perm Pid}
    (h : Befalls w u slot box f now) (h' : Befalls w' u' slot box f now') (hrecord : box.record.Resembles σ box.record)
    (hlaunch : f.edit = .run → w'.backend.nextPid = σ w.backend.nextPid) {b b' : Box}
    (hb : u.service.registry.boxes[slot]? = some b) (hb' : u'.service.registry.boxes[slot]? = some b')
    : b.Resembles σ b' := by
  rcases h.own with ⟨c, hc, hspec, hedit, hsample, hremoved⟩
  rcases h'.own with ⟨c', hc', hspec', hedit', hsample', hremoved'⟩
  obtain rfl := Option.some.inj (hb.symm.trans hc)
  obtain rfl := Option.some.inj (hb'.symm.trans hc')
  refine ⟨by rw [hspec, hspec'], ?_, by rw [hsample, hsample'], by rw [hremoved, hremoved']⟩
  rw [hedit, hedit']
  exact Edit.resembles_apply hrecord hlaunch now now'

section Swap

variable {u u' v v' : World Backend Event} {slot₁ slot₂ : Slot} {box₁ box₂ : Box} {f₁ f₂ : Fate}
  {now₁ now₂ now₁' now₂' : Moment}

structure Apart (w : World Backend Event) (slot₁ slot₂ : Slot) (box₁ box₂ : Box) : Prop where
  ne : slot₁ ≠ slot₂
  first : w.service.registry.boxes[slot₁]? = some box₁
  second : w.service.registry.boxes[slot₂]? = some box₂
  ids : box₁.spec.id ≠ box₂.spec.id
  pids : ∀ pid, box₁.record.pid = some pid → box₂.record.pid ≠ some pid
  known : ∀ (i : Slot) (b : Box) (pid : Pid), w.service.registry.boxes[i]? = some b → b.record.pid = some pid →
    pid < w.backend.nextPid
  below : ∀ p ∈ w.backend.processes, p.pid < w.backend.nextPid

theorem apart_of_sane (h : w.Sane limits) (hne : slot₁ ≠ slot₂)
    (h₁ : w.service.registry.boxes[slot₁]? = some box₁) (h₂ : w.service.registry.boxes[slot₂]? = some box₂)
    : w.Apart slot₁ slot₂ box₁ box₂ where
  ne := hne
  first := h₁
  second := h₂
  ids heq := by
    have hspec₁ : w.service.registry.specs[slot₁]? = some box₁.spec := by simp [Registry.specs, h₁]
    have hspec₂ : w.service.registry.specs[slot₂]? = some box₂.spec := by simp [Registry.specs, h₂]
    have hindexed := Registry.indexed_of_reachable h.reachable
    exact hne (hindexed.slot_eq_of_specs hspec₁ hspec₂ (by rw [heq]))
  pids pid hpid₁ hpid₂ := by
    rcases Registry.exists_cell? h₁ with ⟨c₁, hc₁, rfl⟩
    rcases Registry.exists_cell? h₂ with ⟨c₂, hc₂, rfl⟩
    exact hne (h.coupled.unique slot₁ slot₂ c₁ c₂ pid hc₁ hc₂ hpid₁ hpid₂)
  known i b pid hb hpid := by
    rcases Registry.exists_cell? hb with ⟨c, hc, rfl⟩
    exact h.coupled.known i c pid hc hpid
  below := h.coupled.tidy.below

theorem isAbout_of_pid? {n : Note} {pid : Pid} (h : n.pid? = some pid) (box : Box)
    : n.IsAbout box ↔ box.record.pid = some pid := by
  cases n <;> cases h <;> rfl

def renumbering (n : Pid) (f₁ f₂ : Fate) : Equiv.Perm Pid :=
  if f₁.launches ∧ f₂.launches then Equiv.swap n (n + 1) else Equiv.refl Pid

theorem renumbering_of_lt {n pid : Pid} (h : pid < n) (f₁ f₂ : Fate) : renumbering n f₁ f₂ pid = pid := by
  unfold renumbering
  split
  . exact Equiv.swap_apply_of_ne_of_ne (Nat.ne_of_lt h) (Nat.ne_of_lt (Nat.lt_succ_of_lt h))
  . rfl

theorem renumbering_first (n : Pid) (h : f₁.launches = true)
    : renumbering n f₁ f₂ n = n + f₂.launches.toNat := by
  cases h₂ : f₂.launches <;> simp [renumbering, h, h₂]

theorem renumbering_second (n : Pid) (h : f₂.launches = true)
    : renumbering n f₁ f₂ (n + f₁.launches.toNat) = n := by
  cases h₁ : f₁.launches <;> simp [renumbering, h, h₁]

/--
Two operations on two boxes, carried out in one order and in the other.
-/
structure Swap (w u v u' v' : World Backend Event) (slot₁ slot₂ : Slot) (box₁ box₂ : Box) (f₁ f₂ : Fate)
    (now₁ now₂ now₁' now₂' : Moment) : Prop extends w.Apart slot₁ slot₂ box₁ box₂ where
  first₁ : Befalls w u slot₁ box₁ f₁ now₁
  second₁ : Befalls u v slot₂ box₂ f₂ now₂
  first₂ : Befalls w u' slot₂ box₂ f₂ now₂'
  second₂ : Befalls u' v' slot₁ box₁ f₁ now₁'
  keeps₁ : f₁.KeepsTo box₁
  keeps₂ : f₂.KeepsTo box₂

namespace Swap

theorem boxes (h : Swap w u v u' v' slot₁ slot₂ box₁ box₂ f₁ f₂ now₁ now₂ now₁' now₂')
    : List.Forall₂ (Box.Resembles (renumbering w.backend.nextPid f₁ f₂)) v.service.registry.boxes
        v'.service.registry.boxes := by
  have hknown : ∀ (i : Slot) (b : Box), w.service.registry.boxes[i]? = some b →
      b.Resembles (renumbering w.backend.nextPid f₁ f₂) b :=
    fun i b hb => .of_known fun pid hpid => renumbering_of_lt (h.known i b pid hb hpid) f₁ f₂
  have hlength : v.service.registry.boxes.length = v'.service.registry.boxes.length := by
    rw [h.second₁.length, h.first₁.length, h.second₂.length, h.first₂.length]
  rw [List.forall₂_iff_get]
  refine ⟨hlength, fun i hi hi' => ?_⟩
  have hall : ∀ b b', v.service.registry.boxes[i]? = some b → v'.service.registry.boxes[i]? = some b' →
      b.Resembles (renumbering w.backend.nextPid f₁ f₂) b' := by
    intro b b' hb hb'
    by_cases h₁ : i = slot₁
    . subst h₁
      rw [h.second₁.others i h.ne] at hb
      apply h.first₁.resembles h.second₂ (hknown i box₁ h.first).record ?_ hb hb'
      intro hrun
      rw [h.first₂.backend, renumbering_first _ (by simp [Fate.launches, hrun])]
      rfl
    . rw [h.second₂.others i h₁] at hb'
      by_cases h₂ : i = slot₂
      . subst h₂
        apply h.second₁.resembles h.first₂ (hknown i box₂ h.second).record ?_ hb hb'
        intro hrun
        rw [h.first₁.backend, show (f₁.backend box₁ w.backend).nextPid = w.backend.nextPid + f₁.launches.toNat from rfl,
          renumbering_second _ (by simp [Fate.launches, hrun])]
      . rw [h.second₁.others i h₂, h.first₁.others i h₁] at hb
        rw [h.first₂.others i h₂, hb] at hb'
        cases hb'
        exact hknown i b hb
  exact hall _ _ (List.getElem?_eq_getElem hi) (List.getElem?_eq_getElem hi')

theorem touch_touch (f g : Fate) {own own' : Option Pid} (hne : ∀ pid, own = some pid → own' ≠ some pid) (p : Process)
    : f.touch own (g.touch own' p) = g.touch own' (f.touch own p) := by
  by_cases hown : some p.pid = own
  . have hother : ∀ q : Process, q.pid = p.pid → g.touch own' q = q := by
      intro q hq
      have hq' : some q.pid ≠ own' := by
        rw [hq]
        exact (hne p.pid hown.symm).symm
      simp [Fate.touch, hq']
    rw [hother p rfl, hother]
    unfold Fate.touch
    split <;> rfl
  . have hother : ∀ q : Process, q.pid = p.pid → f.touch own q = q := by
      intro q hq
      have hq' : some q.pid ≠ own := by
        rw [hq]
        exact hown
      simp [Fate.touch, hq']
    rw [hother p rfl, hother]
    unfold Fate.touch
    split <;> rfl

theorem map_touch_launched (f g : Fate) {own : Option Pid} {n pid : Pid} (hown : ∀ pid, own = some pid → pid < n)
    (hle : n ≤ pid) (spec : Spec)
    : (g.launched spec pid).map (f.touch own) = g.launched spec pid := by
  have hne : some pid ≠ own := by
    intro heq
    exact Nat.lt_irrefl n (Nat.lt_of_le_of_lt hle (hown pid heq.symm))
  unfold Fate.launched
  split
  . simp [Fate.touch, hne]
  . rfl

theorem processes_after {n : Pid} {b : Backend} (hn : b.nextPid = n) (hown : ∀ pid, box₂.record.pid = some pid → pid < n)
    : (f₂.backend box₂ (f₁.backend box₁ b)).processes =
        b.processes.map (f₂.touch box₂.record.pid ∘ f₁.touch box₁.record.pid) ++
          (f₁.launched box₁.spec n ++ f₂.launched box₂.spec (n + f₁.launches.toNat)) := by
  subst hn
  simp only [Fate.backend, List.map_append, List.map_map, map_touch_launched f₂ f₁ hown (Nat.le_refl _),
    List.append_assoc]

theorem map_renumber_launched (σ : Equiv.Perm Pid) (f : Fate) {pid pid' : Pid} (h : f.launches = true → σ pid = pid')
    (spec : Spec)
    : (f.launched spec pid).map (Process.renumber σ) = f.launched spec pid' := by
  unfold Fate.launched
  split
  . next hlaunches => simp [Process.renumber, h hlaunches]
  . rfl

theorem processes (h : Swap w u v u' v' slot₁ slot₂ box₁ box₂ f₁ f₂ now₁ now₂ now₁' now₂')
    : (v.backend.processes.map (Process.renumber (renumbering w.backend.nextPid f₁ f₂))).Perm v'.backend.processes := by
  have hown₁ : ∀ pid, box₁.record.pid = some pid → pid < w.backend.nextPid := fun pid => h.known slot₁ box₁ pid h.first
  have hown₂ : ∀ pid, box₂.record.pid = some pid → pid < w.backend.nextPid := fun pid => h.known slot₂ box₂ pid h.second
  have htouch : f₁.touch box₁.record.pid ∘ f₂.touch box₂.record.pid =
      f₂.touch box₂.record.pid ∘ f₁.touch box₁.record.pid := funext (touch_touch f₁ f₂ h.pids)
  have hold : (w.backend.processes.map (f₂.touch box₂.record.pid ∘ f₁.touch box₁.record.pid)).map
      (Process.renumber (renumbering w.backend.nextPid f₁ f₂)) =
      w.backend.processes.map (f₂.touch box₂.record.pid ∘ f₁.touch box₁.record.pid) := by
    rw [List.map_map]
    apply List.map_congr_left
    intro p hp
    have hpid : ∀ (f : Fate) own q, (f.touch own q).pid = q.pid := by
      intro f own q
      unfold Fate.touch
      split <;> rfl
    simp only [Function.comp, Process.renumber, hpid, renumbering_of_lt (h.below p hp)]
    rw [← hpid f₁ box₁.record.pid p, ← hpid f₂ box₂.record.pid (f₁.touch box₁.record.pid p)]
  rw [h.second₁.backend, h.first₁.backend, h.second₂.backend, h.first₂.backend, processes_after rfl hown₂,
    processes_after rfl hown₁, htouch, List.map_append, hold, List.map_append,
    map_renumber_launched _ f₁ (fun hlaunches => renumbering_first _ hlaunches),
    map_renumber_launched _ f₂ (fun hlaunches => renumbering_second _ hlaunches)]
  exact List.perm_append_comm.append_left _

theorem names (h : Swap w u v u' v' slot₁ slot₂ box₁ box₂ f₁ f₂ now₁ now₂ now₁' now₂')
    : v'.service.registry.names = v.service.registry.names := by
  rw [h.second₁.names, h.first₁.names, h.second₂.names, h.first₂.names]
  cases f₁.removes <;> cases f₂.removes <;> simp [List.filter_filter, Bool.and_comm]

theorem counters (h : Swap w u v u' v' slot₁ slot₂ box₁ box₂ f₁ f₂ now₁ now₂ now₁' now₂')
    : v'.service.registry.counters = v.service.registry.counters := by
  rcases h.second₁.reachable with ⟨limits, hreach⟩
  rcases h.second₂.reachable with ⟨limits', hreach'⟩
  exact Registry.counters_of_resembles (sane_of_reachable hreach).reachable (sane_of_reachable hreach').reachable h.boxes

theorem clock (h : Swap w u v u' v' slot₁ slot₂ box₁ box₂ f₁ f₂ now₁ now₂ now₁' now₂') : v'.clock = v.clock := by
  rw [h.second₁.clock, h.first₁.clock, h.second₂.clock, h.first₂.clock]
  omega

theorem filter_notes (h : Swap w u v u' v' slot₁ slot₂ box₁ box₂ f₁ f₂ now₁ now₂ now₁' now₂') {p : Note → Bool}
    (hp : ∀ n, p n = true → ¬(n.IsAbout box₁ ∧ n.IsAbout box₂))
    (hone : ∀ n n', p n = true → p n' = true → (n.IsAbout box₁ ↔ n'.IsAbout box₁))
    : v'.backend.notes.filter p = v.backend.notes.filter p := by
  have hnotes : v.backend.notes = w.backend.notes ++ f₁.notes ++ f₂.notes := by
    rw [h.second₁.backend, h.first₁.backend]
    rfl
  have hnotes' : v'.backend.notes = w.backend.notes ++ f₂.notes ++ f₁.notes := by
    rw [h.second₂.backend, h.first₂.backend]
    rfl
  rw [hnotes, hnotes']
  simp only [List.filter_append, List.append_assoc]
  congr 1
  by_cases hnone : f₁.notes.filter p = []
  . simp [hnone]
  . rcases List.exists_mem_of_ne_nil _ hnone with ⟨n, hn⟩
    rw [List.mem_filter] at hn
    have hother : f₂.notes.filter p = [] := by
      rw [List.filter_eq_nil_iff]
      intro n' hn' hp'
      exact hp n' hp' ⟨(hone n n' hn.2 hp').mp (h.keeps₁ n hn.1), h.keeps₂ n' hn'⟩
    simp [hother]

theorem calls (h : Swap w u v u' v' slot₁ slot₂ box₁ box₂ f₁ f₂ now₁ now₂ now₁' now₂') (pid : Pid)
    : v'.backend.callsFor pid = v.backend.callsFor pid := by
  have habout : ∀ n box, decide (Note.pid? n = some pid) = true → (n.IsAbout box ↔ box.record.pid = some pid) :=
    fun n box hn => isAbout_of_pid? (of_decide_eq_true hn) box
  apply h.filter_notes
  . rintro n hn ⟨h₁, h₂⟩
    exact h.pids pid ((habout n box₁ hn).mp h₁) ((habout n box₂ hn).mp h₂)
  . intro n n' hn hn'
    rw [habout n box₁ hn, habout n' box₁ hn']

theorem calls_of_fresh (h : Swap w u v u' v' slot₁ slot₂ box₁ box₂ f₁ f₂ now₁ now₂ now₁' now₂') (pid : Pid)
    (hpid : w.backend.nextPid ≤ pid)
    : v.backend.callsFor pid = w.backend.callsFor pid := by
  have hsilent : ∀ (f : Fate) (slot : Slot) (box : Box), f.KeepsTo box → w.service.registry.boxes[slot]? = some box →
      (f.notes.filter fun n => n.pid? = some pid) = [] := by
    intro f slot box hkeeps hbox
    rw [List.filter_eq_nil_iff]
    intro n hn hfor
    have hown := (isAbout_of_pid? (of_decide_eq_true hfor) box).mp (hkeeps n hn)
    exact Nat.lt_irrefl _ (Nat.lt_of_le_of_lt hpid (h.known slot box pid hbox hown))
  have hnotes : v.backend.notes = w.backend.notes ++ f₁.notes ++ f₂.notes := by
    rw [h.second₁.backend, h.first₁.backend]
    rfl
  simp only [Backend.callsFor, hnotes, List.filter_append, hsilent f₁ slot₁ box₁ h.keeps₁ h.first,
    hsilent f₂ slot₂ box₂ h.keeps₂ h.second, List.append_nil]

theorem launches (h : Swap w u v u' v' slot₁ slot₂ box₁ box₂ f₁ f₂ now₁ now₂ now₁' now₂') (id : BoxId)
    : v'.backend.launchesOf id = v.backend.launchesOf id := by
  apply h.filter_notes
  . rintro n hn ⟨h₁, h₂⟩
    obtain rfl := of_decide_eq_true hn
    exact h.ids (h₁.symm.trans h₂)
  . intro n n' hn hn'
    rw [of_decide_eq_true hn, of_decide_eq_true hn']

theorem resembles (h : Swap w u v u' v' slot₁ slot₂ box₁ box₂ f₁ f₂ now₁ now₂ now₁' now₂')
    : v.Resembles (renumbering w.backend.nextPid f₁ f₂) v' :=
  ⟨h.boxes, h.names, h.counters, h.processes, h.calls, h.launches, h.clock⟩

end Swap

end Swap

section Requests

theorem step_of_closed (hready : w.ready = []) (hclosed : w.service.closed = true) (now : Moment) (key : String)
    (op : Operation)
    : w.step now [(.operate (.text key) op, none)] = ({ w with now }, [(.fault Service.isClosed, 0)]) := by
  apply step_of_refused hready
  simp only [Service.begin, Service.gate, hclosed, if_true]
  rfl

theorem Befalls.keeps_lookup (h : Befalls w w' slot box f now) (hreach : Reachable limits w)
    {key : String} {slot' : Slot} (hne : slot' ≠ slot) (hlookup : w.service.registry.lookup key = .ok slot')
    : w'.service.registry.lookup key = .ok slot' := by
  rcases h.reachable with ⟨limits', hreach'⟩
  rcases (Registry.lookup_eq_ok_iff (Registry.indexed_of_reachable (sane_of_reachable hreach).reachable)).mp hlookup with
    ⟨spec, ⟨b, hb, hlisted⟩, hfits⟩
  refine (Registry.lookup_eq_ok_iff (Registry.indexed_of_reachable (sane_of_reachable hreach').reachable)).mpr
    ⟨spec, ⟨b, ?_, hlisted⟩, hfits⟩
  rw [h.others slot' hne, hb]

theorem Befalls.keeps_fate (h : Befalls w w' slot box f now) (box' : Box) (op : Operation)
    : w'.backend.fate w'.service.registry.limits box' op = w.backend.fate w.service.registry.limits box' op := by
  rw [h.backend, h.limits]
  exact w.backend.fate_congr w.service.registry.limits box' op _ _ _ box'.holder

theorem Befalls.step_of_fate (h : Befalls w w' slot box f now) (hreach : Reachable limits w)
    (hopen : w.service.closed = false) {key : String} {slot' : Slot} {box' : Box} (hne : slot' ≠ slot)
    (hlookup : w.service.registry.lookup key = .ok slot') (hbox : w.service.registry.boxes[slot']? = some box')
    (op : Operation) (now' : Moment)
    : ∃ w'', w'.step now' [(.operate (.text key) op, none)] =
          (w'', [(.ofUnit (w.backend.fate w.service.registry.limits box' op).result,
            (w.backend.fate w.service.registry.limits box' op).elapsed)]) ∧
        Befalls w' w'' slot' box' (w.backend.fate w.service.registry.limits box' op) now' := by
  rcases h.reachable with ⟨limits', hreach'⟩
  rw [← h.keeps_fate box' op]
  apply h.still.step_of_fate hreach' (h.closed.trans hopen) (h.keeps_lookup hreach hne hlookup)
  rw [h.others slot' hne, hbox]

theorem Resembles.refl_of_boxes {w w' : World Backend Event} (hservice : w'.service = w.service)
    (hbackend : w'.backend = w.backend) (hclock : w'.clock = w.clock)
    : w.Resembles (Equiv.refl Pid) w' := by
  have hprocesses : w.backend.processes.map (Process.renumber (Equiv.refl Pid)) = w.backend.processes :=
    List.map_id _
  refine ⟨?_, by rw [hservice], by rw [hservice], ?_, fun _ => by rw [hbackend], fun _ => by rw [hbackend], hclock⟩
  . rw [hservice, List.forall₂_same]
    exact fun b _ => .of_known fun _ _ => rfl
  . rw [hbackend, hprocesses]

/--
Operations on different boxes are independent. In a world at rest two of them can be carried out in either order: each
has the same result and takes the same time, and what comes of both is the same but for readings of the clock and the
numbers of processes that were launched just now, for which no further call is made. Neither changes any other box.
-/
theorem operations_are_independent (hreach : Reachable limits w) (hstill : w.Still) {key₁ key₂ : String}
    {slot₁ slot₂ : Slot} (h₁ : w.service.registry.lookup key₁ = .ok slot₁)
    (h₂ : w.service.registry.lookup key₂ = .ok slot₂) (hne : slot₁ ≠ slot₂) (op₁ op₂ : Operation)
    (now₁ now₂ now₁' now₂' : Moment)
    : let first := w.step now₁ [(.operate (.text key₁) op₁, none)]
      let both := first.1.step now₂ [(.operate (.text key₂) op₂, none)]
      let first' := w.step now₂' [(.operate (.text key₂) op₂, none)]
      let both' := first'.1.step now₁' [(.operate (.text key₁) op₁, none)]
      both'.2 = first.2 ∧ both.2 = first'.2 ∧ both.1.Still ∧ both'.1.Still ∧
        (∃ σ : Equiv.Perm Pid, (∀ pid, pid < w.backend.nextPid → σ pid = pid) ∧ both.1.Resembles σ both'.1) ∧
        (∀ pid, w.backend.nextPid ≤ pid → both.1.backend.callsFor pid = w.backend.callsFor pid) ∧
        (∀ i, i ≠ slot₁ → first.1.service.registry.boxes[i]? = w.service.registry.boxes[i]? ∧
          both'.1.service.registry.boxes[i]? = first'.1.service.registry.boxes[i]?) ∧
        ∀ i, i ≠ slot₂ → first'.1.service.registry.boxes[i]? = w.service.registry.boxes[i]? ∧
          both.1.service.registry.boxes[i]? = first.1.service.registry.boxes[i]? := by
  have hsane := sane_of_reachable hreach
  have hindexed := Registry.indexed_of_reachable hsane.reachable
  cases hclosed : w.service.closed with
  | true =>
    have hrest : ∀ now, ({ w with now } : World Backend Event).Still :=
      fun now => ⟨⟨hstill.idle, hstill.waits⟩, hstill.ready, hstill.timers, hstill.results⟩
    have hrefused : ∀ now key op, w.step now [(.operate (.text key) op, none)] =
        ({ w with now }, [(.fault Service.isClosed, 0)]) := step_of_closed hstill.ready hclosed
    have hagain : ∀ now now' key op, ({ w with now } : World Backend Event).step now' [(.operate (.text key) op, none)] =
        ({ w with now := now' }, [(.fault Service.isClosed, 0)]) :=
      fun now now' => step_of_closed (hrest now).ready hclosed now'
    dsimp only
    rw [hrefused now₁ key₁ op₁, hrefused now₂' key₂ op₂, hagain now₁ now₂ key₂ op₂, hagain now₂' now₁' key₁ op₁]
    exact ⟨rfl, rfl, hrest now₂, hrest now₁', ⟨Equiv.refl Pid, fun _ _ => rfl, .refl_of_boxes rfl rfl rfl⟩,
      fun _ _ => rfl, fun _ _ => ⟨rfl, rfl⟩, fun _ _ => ⟨rfl, rfl⟩⟩
  | false =>
    rcases (Registry.lookup_eq_ok_iff hindexed).mp h₁ with ⟨-, ⟨box₁, hbox₁, -⟩, -⟩
    rcases (Registry.lookup_eq_ok_iff hindexed).mp h₂ with ⟨-, ⟨box₂, hbox₂, -⟩, -⟩
    rcases hstill.step_of_fate hreach hclosed h₁ hbox₁ op₁ now₁ with ⟨u, hu, hfirst₁⟩
    rcases hstill.step_of_fate hreach hclosed h₂ hbox₂ op₂ now₂' with ⟨u', hu', hfirst₂⟩
    rcases hfirst₁.step_of_fate hreach hclosed hne.symm h₂ hbox₂ op₂ now₂ with ⟨v, hv, hsecond₁⟩
    rcases hfirst₂.step_of_fate hreach hclosed hne h₁ hbox₁ op₁ now₁' with ⟨v', hv', hsecond₂⟩
    have hapart := apart_of_sane hsane hne hbox₁ hbox₂
    have hswap : Swap w u v u' v' slot₁ slot₂ box₁ box₂ _ _ now₁ now₂ now₁' now₂' :=
      ⟨hapart, hfirst₁, hsecond₁, hfirst₂, hsecond₂, Fate.keepsTo_fate _ _ _ _, Fate.keepsTo_fate _ _ _ _⟩
    dsimp only
    rw [hu, hu', hv, hv']
    refine ⟨rfl, rfl, hsecond₁.still, hsecond₂.still,
      ⟨_, fun pid hpid => renumbering_of_lt hpid _ _, hswap.resembles⟩, hswap.calls_of_fresh, ?_, ?_⟩
    . exact fun i hi => ⟨hfirst₁.others i hi, hsecond₂.others i hi⟩
    . exact fun i hi => ⟨hfirst₂.others i hi, hsecond₁.others i hi⟩

def neighbours : World Backend Event :=
  let w := ((start {} false).beginWish 0 (.create { image := "alpine" } (some (.text "web")))).1
  let w := (w.beginWish 0 (.create { image := "alpine" } (some (.text "db")))).1
  let w := (w.beginWish 0 (.operate (.text "web") .start)).1
  { (((w.runTask 0).runTask 0).runTask 1).runTask 1 with ready := [] }

theorem reachable_neighbours : Reachable {} neighbours := by
  have hstart : Reachable {} (start {} false) := .start false
  have hweb := hstart.step (.begin 0 (.create { image := "alpine" } (some (.text "web"))))
  have hboth := hweb.step (.begin 0 (.create { image := "alpine" } (some (.text "db"))))
  have hbegun := hboth.step (.begin 0 (.operate (.text "web") .start))
  have hstarted := (((hbegun.step (.turn 0)).step (.turn 0)).step (.turn 1)).step (.turn 1)
  exact hstarted.step (.arrange rfl rfl rfl (Nat.le_refl _))

theorem still_neighbours : neighbours.Still :=
  have hresults : neighbours.results.map Prod.fst = [0] := rfl
  { atRest_of_watches (w := neighbours) [(1, 0, 10000)] [10000] rfl rfl with
    ready := rfl
    timers := rfl
    results := by
      intro entry hentry
      have hmem := List.mem_map_of_mem (f := Prod.fst) hentry
      rw [hresults, List.mem_singleton] at hmem
      rw [hmem]
      exact Nat.zero_lt_succ _ }

theorem operations_are_independent_neighbours
    : let first := neighbours.step ⟨2, 0⟩ [(.operate (.text "web") .pause, none)]
      let both := first.1.step ⟨3, 0⟩ [(.operate (.text "db") .start, none)]
      let first' := neighbours.step ⟨2, 0⟩ [(.operate (.text "db") .start, none)]
      let both' := first'.1.step ⟨3, 0⟩ [(.operate (.text "web") .pause, none)]
      (first.2 = [(.done, 0)] ∧ both.2 = [(.done, 0)] ∧ first'.2 = [(.done, 0)] ∧ both'.2 = [(.done, 0)]) ∧
      (first.1.service.registry.boxes.map (·.record.status) = [.paused, .created] ∧
        first'.1.service.registry.boxes.map (·.record.status) = [.running, .running]) ∧
      (both.1.service.registry.boxes.map (·.record.status) = [.paused, .running] ∧
        both'.1.service.registry.boxes.map (·.record.status) = [.paused, .running]) ∧
      (both.1.backend.isPaused 10000 = true ∧ both.1.backend.isAlive 10001 = true) ∧
      (both'.1.backend.isPaused 10000 = true ∧ both'.1.backend.isAlive 10001 = true) ∧
      ∃ σ, both.1.Resembles σ both'.1 := by
  have hweb : neighbours.service.registry.lookup "web" = .ok 0 := rfl
  have hdb : neighbours.service.registry.lookup "db" = .ok 1 := rfl
  rcases operations_are_independent reachable_neighbours still_neighbours hweb hdb (by decide) .pause .start ⟨2, 0⟩
    ⟨3, 0⟩ ⟨3, 0⟩ ⟨2, 0⟩ with ⟨hpause, hstart, -, -, ⟨σ, -, hresembles⟩, -⟩
  exact ⟨⟨rfl, hstart.trans rfl, rfl, hpause.trans rfl⟩, ⟨rfl, rfl⟩, ⟨rfl, rfl⟩, ⟨rfl, rfl⟩, ⟨rfl, rfl⟩, σ, hresembles⟩

end Requests

end World

end Simulation

end BoxRegistry
