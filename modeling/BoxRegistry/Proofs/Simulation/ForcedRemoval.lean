import BoxRegistry.Proofs.Registry.TableLock
import BoxRegistry.Proofs.Simulation.Independence

namespace BoxRegistry

open Time (Moment Span)

namespace Operation

variable {b : Box} (hlisted : b.removed = false)
include hlisted

theorem enter_of_inactive (hinactive : b.record.status.isActive = false) (t : TaskId)
    : (remove true).enter { b with holder := some t } = Box.unlist { b with holder := some t } := by
  simp [enter, hlisted, hinactive]

theorem enter_of_terminal (hterminal : b.record.status.isTerminal = true) (t : TaskId)
    : (remove false).enter { b with holder := some t } = Box.unlist { b with holder := some t } := by
  simp [enter, hlisted, Status.ensureRemovable, hterminal]

end Operation

namespace Registry

variable {r : Registry} {slot : Slot} {b : Box}

def strike (r : Registry) (slot : Slot) (b : Box) : Registry :=
  { r with
    boxes := r.boxes.set slot { b with removed := true },
    names := r.names.filter fun entry => some entry.1 ≠ b.spec.name,
    counters := r.counters.record .removed, nextTask := r.nextTask + 1 }

structure Bare (r : Registry) (slot : Slot) (b : Box) : Prop where
  box : r.boxes[slot]? = some b
  holder : b.holder = none
  queue : b.queue = []
  watch : b.watch = none

theorem Tidy.ne_nextTask (h : r.Tidy) : ∀ entry ∈ r.tasks, entry.1 ≠ r.nextTask := by
  intro entry hentry
  have hsome : r.task? entry.1 ≠ none := by
    rw [task?, Ne, List.lookup_eq_none_iff]
    exact fun hnone => by simpa using hnone entry hentry
  rcases Option.ne_none_iff_exists'.mp hsome with ⟨task, htask⟩
  exact Nat.ne_of_lt (h.fresh entry.1 task htask)

theorem step_strike (h : r.Tidy) (hbare : r.Bare slot b) {op : Operation}
    (henter : op.enter { b with holder := some r.nextTask } = Box.unlist { b with holder := some r.nextTask })
    (now : Moment)
    : (r.begin slot op).2.1.step (.turn now r.nextTask) = (r.strike slot b, [.settled r.nextTask (.ok ())]) := by
  rcases hbare with ⟨hb, hholder, hqueue, hwatch⟩
  have hclaim : b.claim r.nextTask = (true, { b with holder := some r.nextTask }) := by
    simp [Box.claim, hholder]
  have htask : (r.begin slot op).2.1.task? r.nextTask = some ⟨slot, .enter op⟩ := by simp [task?_begin]
  have hfresh : ∀ task x, (task, x) ∈ r.tasks → ¬task = r.nextTask := fun task x hmem => h.ne_nextTask (task, x) hmem
  have hmodify : ∀ f, r.boxes.modify slot f = r.boxes.set slot (f b) := by
    intro f
    rw [List.modify_eq_set_getElem?, hb]
    rfl
  have hself : ∀ a, (r.boxes.set slot a)[slot]? = some a :=
    fun a => List.getElem?_set_self (List.getElem?_eq_some_iff.mp hb).1
  have hagain : ∀ f a, (r.boxes.set slot a).modify slot f = r.boxes.set slot (f a) := by
    intro f a
    rw [List.modify_eq_set_getElem?, hself]
    simp
  simp only [step, run, htask, show (r.begin slot op).2.1.boxes[slot]? = some b from hb, withBox, hclaim, if_true,
    henter, apply, Box.unlist]
  simpa [begin, spawn, assign, performAll, perform, disarm, modifyBox, hmodify, hself, hagain, hwatch, hqueue, leave,
    dropTask, Box.handOver, Option.bind, hholder, strike] using hfresh

theorem lookup_congr {r' : Registry} (h : r.Indexed) (h' : r'.Indexed)
    (hlists : ∀ s spec, r'.Lists s spec ↔ r.Lists s spec) (key : String)
    : r'.lookup key = r.lookup key := by
  have hiff : ∀ s, r'.lookup key = .ok s ↔ r.lookup key = .ok s := by
    intro s
    simp only [lookup_eq_ok_iff h, lookup_eq_ok_iff h', hlists]
  cases hlookup : r.lookup key with
  | ok s => rw [hiff, hlookup]
  | error f =>
    cases hlookup' : r'.lookup key with
    | ok s =>
      rw [hiff, hlookup] at hlookup'
      cases hlookup'
    | error f' => rw [lookup_eq_error hlookup, lookup_eq_error hlookup']

theorem resembles_of_others {r' : Registry} (slot : Slot) (hlength : r'.boxes.length = r.boxes.length)
    (hothers : ∀ i, i ≠ slot → r'.boxes[i]? = r.boxes[i]?)
    (hown : ∀ b b', r.boxes[slot]? = some b → r'.boxes[slot]? = some b' → b.Resembles (Equiv.refl Pid) b')
    : List.Forall₂ (Box.Resembles (Equiv.refl Pid)) r.boxes r'.boxes := by
  rw [List.forall₂_iff_get]
  refine ⟨hlength.symm, fun i hi hi' => ?_⟩
  have hboth : r.boxes[i]? = some (r.boxes.get ⟨i, hi⟩) ∧ r'.boxes[i]? = some (r'.boxes.get ⟨i, hi'⟩) :=
    ⟨List.getElem?_eq_getElem hi, List.getElem?_eq_getElem hi'⟩
  by_cases hslot : i = slot
  . subst hslot
    exact hown _ _ hboth.1 hboth.2
  . have hsame := hothers i hslot
    rw [hboth.1, hboth.2] at hsame
    rw [Option.some.inj hsame]
    exact .of_known fun _ _ => rfl

end Registry

namespace Simulation

section Forced

variable {b : Backend} {box : Box} {op : Operation} {pid : Pid} {grace : Option Span}

def Backend.forcedFate (b : Backend) (op : Operation) (status : Status) (pid : Pid) (asked : Bool) (wait : Nat) :
    Fate where
  elapsed := wait
  notes :=
    (if status = .paused then [.resume pid] else []) ++ (if asked then [.terminate pid false] else []) ++
      .terminate pid true :: if b.plain then [] else [.release pid]
  paused := if status = .paused then some false else none
  ending := some (.signaled sigKill)
  edit := .finish .stopped (.stopped true none)
  removes := op.removes

namespace Backend

theorem killFate_of_accepted (haccepts : b.refusesKill = false)
    : b.killFate op pid = b.forcedFate op .running pid false 0 := by
  simp [killFate, haccepts, endFate, Fate.andThen, forcedFate, ProcessEnd.signaled]

theorem forcedFate_of_asked (b : Backend) (op : Operation) (pid : Pid) (wait : Nat)
    : Fate.andThen { notes := [.terminate pid false] }
          (.andThen { elapsed := wait } (b.forcedFate op .running pid false 0)) =
        b.forcedFate op .running pid true wait := by
  simp [Fate.andThen, forcedFate]

theorem partFate_of_ignored (haccepts : b.refusesKill = false) (hignores : b.ignoresRequests = true) (grace : Span)
    : b.partFate op pid (some grace) = b.forcedFate op .running pid true grace.ticks := by
  rw [partFate, if_pos hignores, killFate_of_accepted haccepts]
  exact b.forcedFate_of_asked op pid _

theorem stopFate_of_part {asked : Bool} {wait : Nat}
    (hpart : b.partFate op pid grace = b.forcedFate op .running pid asked wait) (status : Status)
    : b.stopFate op status pid grace = b.forcedFate op status pid asked wait := by
  by_cases hpaused : status = .paused
  . simp [stopFate, hpaused, hpart, Fate.andThen, forcedFate]
  . simp [stopFate, hpaused, hpart, forcedFate]

end Backend

def unkillable (pid : Pid) : Fault :=
  .stopFailed (Fault.engine ("kill of pid " ++ toString pid ++ " not permitted")).message

def Fate.spared (status : Status) (pid : Pid) : Fate where
  result := .error (unkillable pid)
  notes := (if status = .paused then [.resume pid] else []) ++ [.terminate pid true]
  paused := if status = .paused then some false else none

theorem Backend.stopFate_of_refused (hrefuses : b.refusesKill = true) (status : Status)
    : b.stopFate op status pid none = .spared status pid := by
  by_cases hpaused : status = .paused
  . simp [stopFate, hpaused, partFate, killFate, hrefuses, Fate.andThen, Fate.refused, Fate.spared, unkillable]
  . simp [stopFate, hpaused, partFate, killFate, hrefuses, Fate.andThen, Fate.refused, Fate.spared, unkillable]

theorem Fate.withProcess_stop (hruns : box.Runs pid) (go : Pid → Fate) : Fate.withProcess box .stop go = go pid := by
  have happly : box.record.status.apply .stop = .ok .stopped := Status.apply_stop_eq_ok.mpr ⟨hruns.active, rfl⟩
  simp [Fate.withProcess, happly, Box.process, hruns.pid]

end Forced

end Simulation

namespace Simulation.World

variable {limits : Limits} {w : World Backend Event} {slot : Slot} {box : Box} {key : String}

def strike (w : World Backend Event) (slot : Slot) (box : Box) (now : Moment) : World Backend Event :=
  { w with
    now,
    service :=
      { w.service with
        registry := w.service.registry.strike slot box,
        teardown := w.service.teardown.settle [.settled w.service.registry.nextTask (.ok ())] },
    results := (w.service.registry.nextTask, .ok ()) :: w.results }

theorem Still.bare (h : w.Still) (hreach : Reachable limits w) (hbox : w.service.registry.boxes[slot]? = some box)
    (hinactive : box.record.status.isActive = false)
    : w.service.registry.Bare slot box := by
  have hsane := sane_of_reachable hreach
  rcases Registry.exists_cell? hbox with ⟨c, hc, rfl⟩
  have hsound := Registry.sound_of_reachable hsane.reachable hc
  have hholder := h.unheld hsane hc
  exact ⟨hbox, hholder, hsound.idle hholder, hsound.watch_eq_none hinactive⟩

theorem filter_flights (hsane : w.Sane limits) {r : Registry}
    (hr : ∀ t, t ≠ w.service.registry.nextTask → r.task? t = w.service.registry.task? t)
    : w.flights.filter (fun f => (r.task? f.task).isSome) = w.flights := by
  rw [List.filter_eq_self]
  intro f hf
  rcases hsane.coupled.serves f hf with ⟨task, htask, -⟩
  have hlt := (Registry.tidy_of_reachable hsane.reachable).fresh f.task task htask
  rw [hr f.task (Nat.ne_of_lt hlt), htask]
  rfl

theorem Still.step_strike (h : w.Still) (hreach : Reachable limits w) (hopen : w.service.closed = false)
    (hlookup : w.service.registry.lookup key = .ok slot) (hbare : w.service.registry.Bare slot box) {op : Operation}
    (henter : op.enter { box with holder := some w.service.registry.nextTask } =
      Box.unlist { box with holder := some w.service.registry.nextTask })
    (now : Moment)
    : w.step now [(.operate (.text key) op, none)] = (w.strike slot box now, [(.done, 0)]) := by
  have hnow : Reachable limits { w with now } := reachable_of_arranged hreach rfl rfl rfl (Nat.le_refl _)
  have hstill : ({ w with now } : World Backend Event).Still := ⟨⟨h.idle, h.waits⟩, h.ready, h.timers, h.results⟩
  have hsane := sane_of_reachable hreach
  have htidy := Registry.tidy_of_reachable hsane.reachable
  have hbegun : w.flights.filter
      (fun f => ((w.service.registry.begin slot op).2.1.task? f.task).isSome) = w.flights :=
    filter_flights hsane fun t ht => by simp [Registry.task?_begin, ht]
  have hoperate := operate_of_lookup (w := { w with now }) hstill.ready hopen hlookup op
  dsimp only at hoperate
  rw [hbegun] at hoperate
  let v : World Backend Event :=
    { w with now, ready := [], service := { w.service with registry := (w.service.registry.begin slot op).2.1 } }
  have hjob : v.runJob (.task w.service.registry.nextTask) = w.strike slot box now := by
    have hnone : ∀ f ∈ w.flights, f.task ≠ w.service.registry.nextTask := by
      intro f hf
      rcases hsane.coupled.serves f hf with ⟨task, htask, -⟩
      exact Nat.ne_of_lt (htidy.fresh f.task task htask)
    rw [runJob_turn (w := v) hsane.coupled.tidy hnone (h.dozes hsane)]
    have hstep : v.service.registry.step (.turn v.now w.service.registry.nextTask) = _ :=
      Registry.step_strike htidy hbare henter now
    rw [hstep]
    have hkept := filter_flights (r := w.service.registry.strike slot box) hsane fun t _ => rfl
    simp [Service.update, update, perform, hkept, strike, h.ready, v]
  have hresult : (w.strike slot box now).results.lookup w.service.registry.nextTask = some (.ok ()) := by
    simp [strike]
  have hruns : Runs w.service.registry.nextTask 1 { v with ready := [.task w.service.registry.nextTask] }
      (w.strike slot box now) := by
    apply Runs.job rfl
    rw [show ({ v with ready := [] } : World Backend Event) = v from rfl, hjob]
    exact .rest h.ready (by rw [hresult]; rfl)
  rw [step_of_runs hoperate hruns hresult (by decide)]
  simp [strike, Outcome.ofUnit]

section Strikes

variable {w' : World Backend Event} {now : Moment}

theorem getElem?_strike (hbox : w.service.registry.boxes[slot]? = some box) (now : Moment) (i : Slot)
    : (w.strike slot box now).service.registry.boxes[i]? =
        if i = slot then some { box with removed := true } else w.service.registry.boxes[i]? := by
  have hlt := (List.getElem?_eq_some_iff.mp hbox).1
  by_cases hi : i = slot
  . subst hi
    rw [if_pos rfl]
    exact List.getElem?_set_self hlt
  . rw [if_neg hi]
    exact List.getElem?_set_ne (Ne.symm hi)

structure Strikes (w w' : World Backend Event) (slot : Slot) (box : Box) : Prop where
  boxes : w'.service.registry.boxes = w.service.registry.boxes.set slot { box with removed := true }
  names : w'.service.registry.names = w.service.registry.names.filter fun entry => some entry.1 ≠ box.spec.name
  forgotten : ∀ key, w.service.registry.lookup key = .ok slot → w'.service.registry.lookup key = .error (.notFound key)
  counters : w'.service.registry.counters =
    { w.service.registry.counters with removed := w.service.registry.counters.removed + 1 }
  backend : w'.backend = w.backend
  clock : w'.clock = w.clock

theorem strikes_strike (hreach : Reachable limits w) (hreach' : Reachable limits (w.strike slot box now))
    (hbox : w.service.registry.boxes[slot]? = some box)
    : w.Strikes (w.strike slot box now) slot box := by
  refine ⟨rfl, rfl, ?_, rfl, rfl, rfl⟩
  intro key hlookup
  cases hagain : (w.strike slot box now).service.registry.lookup key with
  | error f => rw [Registry.lookup_eq_error hagain]
  | ok slot' =>
    rcases (Registry.lookup_eq_ok_iff (Registry.indexed_of_reachable (sane_of_reachable hreach').reachable)).mp hagain
      with ⟨spec, ⟨b, hb, hlisted, hspec⟩, hfits⟩
    rw [getElem?_strike hbox] at hb
    split at hb
    . cases hb
      cases hlisted
    . next hne =>
      have hindexed := Registry.indexed_of_reachable (sane_of_reachable hreach).reachable
      have hother := (Registry.lookup_eq_ok_iff hindexed).mpr ⟨spec, ⟨b, hb, hlisted, hspec⟩, hfits⟩
      rw [hlookup] at hother
      exact absurd (Except.ok.inj hother).symm hne

end Strikes

section Concurs

variable {w' w₁ : World Backend Event} {now now₁ now₂ : Moment}

/--
The boxes that are registered, the names that are taken, what is counted and the processes are the same.
-/
structure Concurs (w w' : World Backend Event) : Prop where
  table : ∀ (i : Slot) (b : Box), b.removed = false →
    (w'.service.registry.boxes[i]? = some b ↔ w.service.registry.boxes[i]? = some b)
  names : w'.service.registry.names = w.service.registry.names
  counters : w'.service.registry.counters = w.service.registry.counters
  processes : w'.backend.processes = w.backend.processes

def deaf (w : World Backend Event) : World Backend Event :=
  { w with backend := { w.backend with ignoresRequests := true } }

theorem reachable_deaf (h : Reachable limits w) : Reachable limits w.deaf :=
  h.step (.setUp w.backend.launchFault w.backend.launchDelay w.backend.launchPanics true w.backend.refusesKill)

theorem Still.deaf (h : w.Still) (hreach : Reachable limits w) : w.deaf.Still := by
  have hdozes := h.dozes (sane_of_reachable hreach)
  exact still_of_dozes (sane_of_reachable (reachable_deaf hreach)).coupled.tidy h.ready h.agenda h.idle
    (fun f hf => ⟨(hdozes f hf).deadline, (hdozes f hf).awaits⟩) h.results

structure Parallel (w w' w₁ : World Backend Event) (slot : Slot) (box box₁ : Box) (pid : Pid) (grace : Span)
    (now now₁ : Moment) : Prop where
  forced : Befalls w w' slot box (w.backend.forcedFate (.remove true) box.record.status pid false 0) now
  stopped : Befalls w.deaf w₁ slot box
    (w.deaf.backend.forcedFate (.stop grace) box.record.status pid true grace.ticks) now₁
  box : w₁.service.registry.boxes[slot]? = some box₁

namespace Parallel

variable {box₁ : Box} {pid : Pid} {grace : Span}

theorem others (h : Parallel w w' w₁ slot box box₁ pid grace now now₁) {i : Slot} (hi : i ≠ slot)
    : (w₁.strike slot box₁ now₂).service.registry.boxes[i]? = w'.service.registry.boxes[i]? := by
  rw [getElem?_strike h.box, if_neg hi, h.forced.others i hi, h.stopped.others i hi]
  rfl

theorem resembles (h : Parallel w w' w₁ slot box box₁ pid grace now now₁)
    : List.Forall₂ (Box.Resembles (Equiv.refl Pid)) w'.service.registry.boxes
        (w₁.strike slot box₁ now₂).service.registry.boxes := by
  apply Registry.resembles_of_others slot
  . rw [show (w₁.strike slot box₁ now₂).service.registry.boxes.length = w₁.service.registry.boxes.length from
      List.length_set .., h.stopped.length, h.forced.length]
    rfl
  . exact fun i hi => h.others hi
  . intro b b' hb hb'
    rcases h.forced.own with ⟨c, hc, hspec, hrecord, hsample, hremoved⟩
    rcases h.stopped.own with ⟨c₁, hc₁, hspec₁, hrecord₁, hsample₁, -⟩
    rw [getElem?_strike h.box, if_pos rfl] at hb'
    rw [hc] at hb
    rw [h.box] at hc₁
    cases hb
    cases hb'
    cases hc₁
    refine ⟨by rw [hspec, hspec₁], ?_, by rw [hsample, hsample₁]; rfl, by rw [hremoved]; rfl⟩
    rw [hrecord, hrecord₁]
    apply Edit.resembles_apply (e := .finish .stopped (.stopped true none)) _ (by simp) now now₁
    exact .of_known fun _ _ => rfl

theorem concurs (h : Parallel w w' w₁ slot box box₁ pid grace now now₁)
    (hreach : Reachable limits (w₁.strike slot box₁ now₂))
    : w'.Concurs (w₁.strike slot box₁ now₂) := by
  refine ⟨?_, ?_, ?_, ?_⟩
  . intro i b hlisted
    by_cases hi : i = slot
    . subst hi
      rcases h.forced.own with ⟨c, hc, -, -, -, hremoved⟩
      rw [getElem?_strike h.box, if_pos rfl, hc]
      constructor
      . intro heq
        rw [← Option.some.inj heq] at hlisted
        cases hlisted
      . intro heq
        rw [← Option.some.inj heq, hremoved] at hlisted
        cases hlisted
    . rw [h.others hi]
  . rcases h.stopped.own with ⟨c₁, hc₁, hspec₁, -⟩
    obtain rfl := Option.some.inj (h.box.symm.trans hc₁)
    change w₁.service.registry.names.filter _ = _
    rw [h.forced.names, h.stopped.names, hspec₁]
    rfl
  . rcases h.forced.reachable with ⟨limits', hreach'⟩
    exact Registry.counters_of_resembles (sane_of_reachable hreach').reachable (sane_of_reachable hreach).reachable
      h.resembles
  . have htouch : (w.deaf.backend.forcedFate (.stop grace) box.record.status pid true grace.ticks).touch
        box.record.pid = (w.backend.forcedFate (.remove true) box.record.status pid false 0).touch box.record.pid := by
      funext p
      simp only [Fate.touch, Backend.forcedFate]
    rw [show (w₁.strike slot box₁ now₂).backend = w₁.backend from rfl, h.forced.backend, h.stopped.backend,
      Fate.backend_of_ne (by simp [Backend.forcedFate]), Fate.backend_of_ne (by simp [Backend.forcedFate]), htouch]
    rfl

end Parallel

end Concurs

section Survives

variable {w' : World Backend Event} {f : Fate} {now : Moment}

theorem Befalls.lookup (h : Befalls w w' slot box f now) (hreach : Reachable limits w)
    (hbox : w.service.registry.boxes[slot]? = some box) (hstays : f.removes = false) (key : String)
    : w'.service.registry.lookup key = w.service.registry.lookup key := by
  rcases h.reachable with ⟨limits', hreach'⟩
  rcases h.own with ⟨box', hbox', hspec, -, -, hremoved⟩
  rw [hstays, Bool.false_or] at hremoved
  apply Registry.lookup_congr (Registry.indexed_of_reachable (sane_of_reachable hreach).reachable)
    (Registry.indexed_of_reachable (sane_of_reachable hreach').reachable)
  intro i spec
  unfold Registry.Lists
  by_cases hi : i = slot
  . subst hi
    simp [hbox, hbox', hspec, hremoved]
  . rw [h.others i hi]

/--
A box stays as it is, with all that is known of it and counted, and one task watches its process as before.
-/
structure Survives (w w' : World Backend Event) (slot : Slot) (box : Box) (pid : Pid) : Prop where
  own : ∃ box', w'.service.registry.boxes[slot]? = some box' ∧ box.Agrees box' ∧ box'.sample = box.sample
  others : ∀ i, i ≠ slot → w'.service.registry.boxes[i]? = w.service.registry.boxes[i]?
  lookup : ∀ key, w'.service.registry.lookup key = w.service.registry.lookup key
  names : w'.service.registry.names = w.service.registry.names
  counters : w'.service.registry.counters = w.service.registry.counters
  watched : ∃ t t', (∀ u p, w.service.registry.Watcher slot u p ↔ u = t ∧ p = pid) ∧
    ∀ u p, w'.service.registry.Watcher slot u p ↔ u = t' ∧ p = pid

theorem AtRest.watched (h : w.AtRest) (hreach : Reachable limits w)
    (hbox : w.service.registry.boxes[slot]? = some box) (hactive : box.record.status.isActive = true) {pid : Pid}
    (hpid : box.record.pid = some pid)
    : ∃ t, ∀ u p, w.service.registry.Watcher slot u p ↔ u = t ∧ p = pid := by
  have hsane := sane_of_reachable hreach
  rcases Registry.exists_cell? hbox with ⟨c, hc, rfl⟩
  rcases Registry.watcher_of_idle hc (Registry.sound_of_reachable hsane.reachable hc)
    (Registry.guarded_of_reachable hsane.reachable hc) (h.unheld hsane hc) hactive with ⟨pid', t, hpid', hwatcher⟩
  obtain rfl : pid = pid' := Option.some.inj (hpid.symm.trans hpid')
  exact ⟨t, hwatcher⟩

theorem survives_of_befalls (h : Befalls w w' slot box f now) (hreach : Reachable limits w) (hstill : w.Still)
    (hbox : w.service.registry.boxes[slot]? = some box) {pid : Pid} (hruns : box.Runs pid) (hkeeps : f.edit = .keep)
    (hstays : f.removes = false)
    : w.Survives w' slot box pid := by
  rcases h.reachable with ⟨limits', hreach'⟩
  rcases h.own with ⟨box', hbox', hspec, hrecord, hsample, hremoved⟩
  rw [hkeeps] at hrecord hsample
  rw [hstays, Bool.false_or] at hremoved
  have hagrees : box.Agrees box' := ⟨hspec, hrecord, hremoved⟩
  have hresembles : List.Forall₂ (Box.Resembles (Equiv.refl Pid)) w.service.registry.boxes
      w'.service.registry.boxes := by
    apply Registry.resembles_of_others slot h.length h.others
    intro b b' hb hb'
    obtain rfl := Option.some.inj (hbox.symm.trans hb)
    obtain rfl := Option.some.inj (hbox'.symm.trans hb')
    refine ⟨hspec, ?_, hsample, hremoved⟩
    rw [hagrees.record]
    exact .of_known fun _ _ => rfl
  rcases hstill.toAtRest.watched hreach hbox hruns.active hruns.pid with ⟨t, hwatched⟩
  have hruns' := hruns.congr hagrees.record hagrees.removed
  rcases h.still.toAtRest.watched hreach' hbox' hruns'.active hruns'.pid with ⟨t', hwatched'⟩
  refine ⟨⟨box', hbox', hagrees, hsample⟩, h.others, h.lookup hreach hbox hstays, ?_, ?_, t, t', hwatched, hwatched'⟩
  . rw [h.names, hstays]
    rfl
  . exact Registry.counters_of_resembles (sane_of_reachable hreach).reachable (sane_of_reachable hreach').reachable
      hresembles

end Survives

def KillsOnly (w w' : World Backend Event) (pid : Pid) : Prop :=
  ∃ calls, w'.backend.notes = w.backend.notes ++ calls ∧ .terminate pid true ∈ calls ∧ ∀ p, .terminate p false ∉ calls

structure Escalates (w w' : World Backend Event) (slot : Slot) (pid : Pid) : Prop where
  calls : ∃ calls, w'.backend.notes = w.backend.notes ++ calls ∧ .terminate pid false ∈ calls ∧
    .terminate pid true ∈ calls
  box : ∃ b code, w'.service.registry.boxes[slot]? = some b ∧ b.record.status = .stopped ∧
    b.record.ending = some (.stopped true code)

section Calls

variable {w' : World Backend Event} {f : Fate} {now : Moment} {pid : Pid}

theorem killsOnly_of_befalls (h : Befalls w w' slot box f now) (hkills : .terminate pid true ∈ f.notes)
    (hspares : ∀ p, .terminate p false ∉ f.notes)
    : w.KillsOnly w' pid :=
  ⟨f.notes, by rw [h.backend]; rfl, hkills, hspares⟩

theorem escalates_of_befalls {b : Backend} {op : Operation} {status : Status} {wait : Nat}
    (h : Befalls w.deaf w' slot box (b.forcedFate op status pid true wait) now)
    : w.Escalates w' slot pid := by
  rcases h.own with ⟨box', hbox', -, hrecord, -, -⟩
  constructor
  . exact ⟨_, by rw [h.backend]; rfl, by simp [Backend.forcedFate], by simp [Backend.forcedFate]⟩
  . exact ⟨box', none, hbox', by rw [hrecord]; rfl, by rw [hrecord]; rfl⟩

end Calls

section Removal

variable (hreach : Reachable limits w) (hstill : w.Still) (hlookup : w.service.registry.lookup key = .ok slot)
  (hbox : w.service.registry.boxes[slot]? = some box)
include hreach hlookup hbox

theorem listed_of_lookup : box.removed = false := by
  have hindexed := Registry.indexed_of_reachable (sane_of_reachable hreach).reachable
  rcases (Registry.lookup_eq_ok_iff hindexed).mp hlookup with ⟨spec, ⟨b, hb, hlisted, -⟩, -⟩
  obtain rfl := Option.some.inj (hbox.symm.trans hb)
  exact hlisted

include hstill

theorem step_of_inactive (hopen : w.service.closed = false) (hinactive : box.record.status.isActive = false)
    (now : Moment)
    : w.step now [(.operate (.text key) (.remove true), none)] = (w.strike slot box now, [(.done, 0)]) := by
  have hlisted := listed_of_lookup hreach hlookup hbox
  exact hstill.step_strike hreach hopen hlookup (hstill.bare hreach hbox hinactive)
    (Operation.enter_of_inactive hlisted hinactive _) now

theorem step_of_terminal (hopen : w.service.closed = false) (hterminal : box.record.status.isTerminal = true)
    (now : Moment)
    : w.step now [(.operate (.text key) (.remove false), none)] = (w.strike slot box now, [(.done, 0)]) := by
  have hlisted := listed_of_lookup hreach hlookup hbox
  have hinactive := Status.isActive_of_isTerminal hterminal
  exact hstill.step_strike hreach hopen hlookup (hstill.bare hreach hbox hinactive)
    (Operation.enter_of_terminal hlisted hterminal _) now

theorem step_of_force (hterminal : box.record.status.isTerminal = true) (now : Moment)
    : w.step now [(.operate (.text key) (.remove true), none)] =
        w.step now [(.operate (.text key) (.remove false), none)] := by
  cases hclosed : w.service.closed with
  | true => rw [step_of_closed hstill.ready hclosed, step_of_closed hstill.ready hclosed]
  | false =>
    have hinactive := Status.isActive_of_isTerminal hterminal
    rw [step_of_inactive hreach hstill hlookup hbox hclosed hinactive,
      step_of_terminal hreach hstill hlookup hbox hclosed hterminal]

variable (hopen : w.service.closed = false) {pid : Pid} (hruns : box.Runs pid)
include hopen hruns

theorem stop_then_remove (haccepts : w.backend.refusesKill = false) (grace : Span) (now₁ now₂ : Moment)
    : ∃ w₁ box₁, w.deaf.step now₁ [(.operate (.text key) (.stop grace), none)] = (w₁, [(.done, grace.ticks)]) ∧
        Befalls w.deaf w₁ slot box
          (w.deaf.backend.forcedFate (.stop grace) box.record.status pid true grace.ticks) now₁ ∧
        w₁.service.registry.boxes[slot]? = some box₁ ∧
        w₁.step now₂ [(.operate (.text key) (.remove false), none)] = (w₁.strike slot box₁ now₂, [(.done, 0)]) := by
  have hdeaf := reachable_deaf hreach
  rcases (hstill.deaf hreach).step_of_fate hdeaf hopen hlookup hbox (.stop grace) now₁ with ⟨w₁, hstep, hbefalls⟩
  have hfate : w.deaf.backend.fate w.deaf.service.registry.limits box (.stop grace) =
      w.deaf.backend.forcedFate (.stop grace) box.record.status pid true grace.ticks := by
    simp only [Backend.fate]
    rw [Fate.withProcess_stop hruns]
    exact Backend.stopFate_of_part (Backend.partFate_of_ignored (b := w.deaf.backend) haccepts rfl grace) _
  rw [hfate] at hstep hbefalls
  rcases hbefalls.reachable with ⟨limits₁, hreach₁⟩
  rcases hbefalls.own with ⟨box₁, hbox₁, -, hrecord₁, -, -⟩
  have hlookup₁ : w₁.service.registry.lookup key = .ok slot := (hbefalls.lookup hdeaf hbox rfl key).trans hlookup
  have hterminal : box₁.record.status.isTerminal = true := by
    rw [hrecord₁]
    rfl
  exact ⟨w₁, box₁, hstep, hbefalls, hbox₁,
    step_of_terminal hreach₁ hbefalls.still hlookup₁ hbox₁ (hbefalls.closed.trans hopen) hterminal now₂⟩

theorem step_of_kill (haccepts : w.backend.refusesKill = false) (now : Moment)
    : ∃ w', w.step now [(.operate (.text key) (.remove true), none)] = (w', [(.done, 0)]) ∧
        Befalls w w' slot box (w.backend.forcedFate (.remove true) box.record.status pid false 0) now := by
  have hfate : w.backend.fate w.service.registry.limits box (.remove true) =
      w.backend.forcedFate (.remove true) box.record.status pid false 0 := by
    simp only [Backend.fate, hruns.active, if_true]
    rw [Fate.withProcess_stop hruns]
    have hpart : w.backend.partFate (.remove true) pid none =
        w.backend.forcedFate (.remove true) .running pid false 0 :=
      Backend.killFate_of_accepted haccepts
    exact Backend.stopFate_of_part hpart _
  have hstep := hstill.step_of_fate hreach hopen hlookup hbox (.remove true) now
  rw [hfate] at hstep
  exact hstep

theorem step_of_spared (hrefuses : w.backend.refusesKill = true) (now : Moment)
    : ∃ w', w.step now [(.operate (.text key) (.remove true), none)] =
          (w', [(.fault (unkillable pid), 0)]) ∧
        Befalls w w' slot box (.spared box.record.status pid) now := by
  have hfate : w.backend.fate w.service.registry.limits box (.remove true) = .spared box.record.status pid := by
    simp only [Backend.fate, hruns.active, if_true]
    rw [Fate.withProcess_stop hruns]
    exact Backend.stopFate_of_refused hrefuses _
  have hstep := hstill.step_of_fate hreach hopen hlookup hbox (.remove true) now
  rw [hfate] at hstep
  exact hstep

theorem concurs_of_accepted (haccepts : w.backend.refusesKill = false) (now : Moment)
    : let forced := w.step now [(.operate (.text key) (.remove true), none)]
      forced.2 = [(.done, 0)] ∧ w.KillsOnly forced.1 pid ∧
        ∀ grace now₁ now₂,
          let stopped := w.deaf.step now₁ [(.operate (.text key) (.stop grace), none)]
          let removed := stopped.1.step now₂ [(.operate (.text key) (.remove false), none)]
          stopped.2 = [(.done, grace.ticks)] ∧ w.Escalates stopped.1 slot pid ∧ removed.2 = [(.done, 0)] ∧
            forced.1.Concurs removed.1 := by
  rcases step_of_kill hreach hstill hlookup hbox hopen hruns haccepts now with ⟨w', hstep, hforced⟩
  have hkills : w.KillsOnly w' pid :=
    killsOnly_of_befalls hforced (by simp [Backend.forcedFate]) (by simp [Backend.forcedFate])
  rw [hstep]
  refine ⟨rfl, hkills, ?_⟩
  intro grace now₁ now₂
  rcases stop_then_remove hreach hstill hlookup hbox hopen hruns haccepts grace now₁ now₂ with
    ⟨w₁, box₁, hstop, hstopped, hbox₁, hremove⟩
  rcases hstopped.reachable with ⟨limits₁, hreach₁⟩
  have hreach₂ := reachable_step hreach₁ now₂ [(.operate (.text key) (.remove false), none)]
  dsimp only
  rw [hstop, hremove]
  rw [hremove] at hreach₂
  exact ⟨rfl, escalates_of_befalls hstopped, rfl, Parallel.concurs ⟨hforced, hstopped, hbox₁⟩ hreach₂⟩

theorem survives_of_refused (hrefuses : w.backend.refusesKill = true) (now : Moment)
    : let forced := w.step now [(.operate (.text key) (.remove true), none)]
      forced.2 = [(.fault (unkillable pid), 0)] ∧ w.KillsOnly forced.1 pid ∧ w.Survives forced.1 slot box pid := by
  rcases step_of_spared hreach hstill hlookup hbox hopen hruns hrefuses now with ⟨w', hstep, hbefalls⟩
  have hkills : w.KillsOnly w' pid := killsOnly_of_befalls hbefalls (by simp [Fate.spared]) (by simp [Fate.spared])
  rw [hstep]
  exact ⟨rfl, hkills, survives_of_befalls hbefalls hreach hstill hbox hruns rfl rfl⟩

end Removal

/--
A removal by force agrees with a plain one. A box that has ended is removed in the same way by both, and one that has
no process is only struck off. A box that has a process is gone as after a stop that had to kill the process and a
plain removal, or else, if the process cannot be killed, it is kept as it was.
-/
theorem forced_removal_agrees (hreach : Reachable limits w) (hstill : w.Still)
    (hlookup : w.service.registry.lookup key = .ok slot) (hbox : w.service.registry.boxes[slot]? = some box)
    (now : Moment)
    : let forced := w.step now [(.operate (.text key) (.remove true), none)]
      (box.record.status.isTerminal = true → forced = w.step now [(.operate (.text key) (.remove false), none)]) ∧
        (w.service.closed = true → forced = ({ w with now }, [(.fault Service.isClosed, 0)])) ∧
        (w.service.closed = false →
          (box.record.status.isActive = false → forced.2 = [(.done, 0)] ∧ w.Strikes forced.1 slot box) ∧
          (box.record.status.isActive = true → ∃ pid, box.record.pid = some pid ∧
            (w.backend.refusesKill = false → forced.2 = [(.done, 0)] ∧ w.KillsOnly forced.1 pid ∧
              ∀ grace now₁ now₂,
                let stopped := w.deaf.step now₁ [(.operate (.text key) (.stop grace), none)]
                let removed := stopped.1.step now₂ [(.operate (.text key) (.remove false), none)]
                stopped.2 = [(.done, grace.ticks)] ∧ w.Escalates stopped.1 slot pid ∧ removed.2 = [(.done, 0)] ∧
                  forced.1.Concurs removed.1) ∧
            (w.backend.refusesKill = true → forced.2 = [(.fault (unkillable pid), 0)] ∧ w.KillsOnly forced.1 pid ∧
              w.Survives forced.1 slot box pid))) := by
  refine ⟨fun hterminal => step_of_force hreach hstill hlookup hbox hterminal now,
    fun hclosed => step_of_closed hstill.ready hclosed now key _, fun hopen => ⟨?_, ?_⟩⟩
  . intro hinactive
    have hstep := step_of_inactive hreach hstill hlookup hbox hopen hinactive now
    have hreach' := reachable_step hreach now [(.operate (.text key) (.remove true), none)]
    rw [hstep] at hreach' ⊢
    exact ⟨rfl, strikes_strike hreach hreach' hbox⟩
  . intro hactive
    rcases Registry.exists_cell? hbox with ⟨c, hc, rfl⟩
    have hsound := Registry.sound_of_reachable (sane_of_reachable hreach).reachable hc
    rcases hsound.coherent.exists_runs hactive with ⟨pid, hruns⟩
    exact ⟨pid, hruns.pid, fun haccepts => concurs_of_accepted hreach hstill hlookup hbox hopen hruns haccepts now,
      fun hrefuses => survives_of_refused hreach hstill hlookup hbox hopen hruns hrefuses now⟩

theorem forced_removal_agrees_neighbours
    : let web := neighbours.step ⟨2, 0⟩ [(.operate (.text "web") (.remove true), none)]
      let db := neighbours.step ⟨2, 0⟩ [(.operate (.text "db") (.remove true), none)]
      let stopped := neighbours.deaf.step ⟨2, 0⟩ [(.operate (.text "web") (.stop ⟨5000000000⟩), none)]
      let removed := stopped.1.step ⟨3, 0⟩ [(.operate (.text "web") (.remove false), none)]
      web.2 = [(.done, 0)] ∧ neighbours.KillsOnly web.1 10000 ∧ stopped.2 = [(.done, 5000)] ∧
        neighbours.Escalates stopped.1 0 10000 ∧ web.1.Concurs removed.1 ∧ db.2 = [(.done, 0)] ∧
        db.1.backend = neighbours.backend := by
  have hweb := forced_removal_agrees reachable_neighbours still_neighbours
    (show neighbours.service.registry.lookup "web" = .ok 0 from rfl) rfl ⟨2, 0⟩
  have hdb := forced_removal_agrees reachable_neighbours still_neighbours
    (show neighbours.service.registry.lookup "db" = .ok 1 from rfl) rfl ⟨2, 0⟩
  rcases (hweb.2.2 rfl).2 rfl with ⟨pid, hpid, haccepted, -⟩
  obtain rfl : 10000 = pid := Option.some.inj hpid
  rcases haccepted rfl with ⟨hdone, hkills, hconcurs⟩
  rcases hconcurs ⟨5000000000⟩ ⟨2, 0⟩ ⟨3, 0⟩ with ⟨hstopped, hescalates, -, hsame⟩
  rcases (hdb.2.2 rfl).1 rfl with ⟨hstruck, hstrikes⟩
  exact ⟨hdone, hkills, hstopped, hescalates, hsame, hstruck, hstrikes.backend⟩

end Simulation.World

end BoxRegistry
