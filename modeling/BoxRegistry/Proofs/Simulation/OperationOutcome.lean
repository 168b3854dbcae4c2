import BoxRegistry.Proofs.Simulation.OperationSteps

/-!
This module contains what an operation comes to on a box whose process, if it has one, is alive, and the proof that its
play comes to that. It is read off the box and the way the backend is set up: neither the clock nor any other process has
a say in it.
-/

namespace BoxRegistry

open Time (Moment Span)

def Operation.removes : Operation → Bool
  | remove _ => true
  | start | stop _ | pause | resume => false

namespace Simulation

inductive Edit where
  | keep
  -- It runs, as the process that was launched just now.
  | run
  | turn (status : Status)
  | finish (status : Status) (ending : Ending)
deriving DecidableEq

namespace Edit

def apply (now : Moment) (pid : Pid) (r : Record) : Edit → Record
  | keep => r
  | run => { r with status := .running, pid := some pid, startedAt := some (r.tick now), lastUpdated := r.tick now }
  | turn status => { r with status, lastUpdated := r.tick now }
  | finish status ending => r.finish now status ending

def sample (sample : Option Usage) : Edit → Option Usage
  | finish .stopped _ => none
  | _ => sample

end Edit

/--
What an operation comes to.
-/
structure Fate where
  result : Except Fault Unit := .ok ()
  -- How long it takes.
  elapsed : Nat := 0
  notes : List Note := []
  -- What becomes of the process that the box had before.
  paused : Option Bool := none
  ending : Option ProcessEnd := none
  edit : Edit := .keep
  removes : Bool := false

namespace Fate

def andThen (f g : Fate) : Fate :=
  { g with
    elapsed := f.elapsed + g.elapsed, notes := f.notes ++ g.notes, paused := g.paused <|> f.paused,
    ending := g.ending <|> f.ending }

def refused (f : Fault) : Fate :=
  { result := .error f }

def touch (f : Fate) (own : Option Pid) (p : Process) : Process :=
  if some p.pid = own ∧ p.lost = false then
    { p with paused := f.paused.getD p.paused, ending := f.ending <|> p.ending }
  else p

def launches (f : Fate) : Bool :=
  f.edit = .run

def launched (f : Fate) (spec : Spec) (pid : Pid) : List Process :=
  if f.launches then [{ pid, order := spec.launchOrder }] else []

def backend (f : Fate) (box : Box) (b : Backend) : Backend :=
  { b with
    nextPid := b.nextPid + f.launches.toNat,
    processes := b.processes.map (f.touch box.record.pid) ++ f.launched box.spec b.nextPid,
    notes := b.notes ++ f.notes }

structure Meets (f : Fate) (box : Box) (now : Moment) (b : Backend) (clock : Nat) (out : Backend × Nat × Move) :
    Prop where
  backend : (out.2.2.deeds.filterMap Deed.released?).foldl Backend.release out.1 = f.backend box b
  time : out.2.1 = clock + f.elapsed
  next : out.2.2.next = .finish f.result
  spec : out.2.2.box.spec = box.spec
  record : out.2.2.box.record = f.edit.apply now b.nextPid box.record
  sample : out.2.2.box.sample = f.edit.sample box.sample
  removed : out.2.2.box.removed = (f.removes || box.removed)
  unlists : .unlist ∈ out.2.2.deeds ↔ f.removes = true

end Fate

namespace Backend

variable (b : Backend)

def launchFailure (limits : Limits) : Option String :=
  if limits.start.ticks < b.launchDelay then some ("launch did not complete within " ++ limits.start.render)
  else if b.launchPanics then some "isolation backend panicked during launch"
  else b.launchFault.map fun reason => (Fault.engine reason).message

def launchFate (limits : Limits) (spec : Spec) : Fate :=
  let f : Fate := { elapsed := min b.launchDelay limits.start.ticks, notes := [.launch spec.id] }
  (b.launchFailure limits).elim { f with edit := .run } fun message =>
    { f with
      result := .error (.startFailed message), edit := .finish .failed (.startFailed message) }

def endFate (op : Operation) (pid : Pid) (forced : Bool) (how : ProcessEnd) : Fate where
  notes := if b.plain then [] else [.release pid]
  edit := .finish .stopped (.stopped forced how.code)
  removes := op.removes

def killFate (op : Operation) (pid : Pid) : Fate :=
  if b.refusesKill then
    Fate.andThen { notes := [.terminate pid true] }
      (.refused (.stopFailed (Fault.engine ("kill of pid " ++ toString pid ++ " not permitted")).message))
  else
    Fate.andThen { notes := [.terminate pid true], ending := some (.signaled sigKill) }
      (b.endFate op pid true (.signaled sigKill))

def partFate (op : Operation) (pid : Pid) : Option Span → Fate
  | none => b.killFate op pid
  | some grace =>
    if b.ignoresRequests then
      Fate.andThen { notes := [.terminate pid false] } (.andThen { elapsed := grace.ticks } (b.killFate op pid))
    else
      Fate.andThen { notes := [.terminate pid false], ending := some (.signaled sigTerm) }
        (b.endFate op pid false (.signaled sigTerm))

def stopFate (op : Operation) (status : Status) (pid : Pid) (grace : Option Span) : Fate :=
  if status = .paused then
    Fate.andThen { notes := [.resume pid], paused := some false } (b.partFate op pid grace)
  else b.partFate op pid grace

end Backend

def Fate.withProcess (box : Box) (t : Transition) (go : Pid → Fate) : Fate :=
  match box.record.status.apply t with
  | .error f => .refused f
  | .ok _ =>
    match box.process with
    | .error f => .refused f
    | .ok pid => go pid

def Backend.fate (b : Backend) (limits : Limits) (box : Box) (op : Operation) : Fate :=
  match op with
  | .start =>
    match box.record.status.apply .start with
    | .error f => .refused f
    | .ok _ => b.launchFate limits box.spec
  | .stop grace => .withProcess box .stop fun pid => b.stopFate op box.record.status pid (some grace)
  | .pause => .withProcess box .pause fun pid => { notes := [.pause pid], paused := some true, edit := .turn .paused }
  | .resume =>
    .withProcess box .resume fun pid => { notes := [.resume pid], paused := some false, edit := .turn .running }
  | .remove true =>
    if box.record.status.isActive then
      .withProcess box .stop fun pid => b.stopFate op box.record.status pid none
    else { removes := true }
  | .remove false =>
    match box.record.status.ensureRemovable with
    | .error f => .refused f
    | .ok _ => { removes := true }

theorem Backend.fate_congr (b : Backend) (limits : Limits) (box : Box) (op : Operation) (nextPid : Pid)
    (processes : List Process) (notes : List Note) (holder : Option TaskId)
    : ({ b with nextPid, processes, notes } : Backend).fate limits { box with holder } op = b.fate limits box op := by
  have hkill : ∀ pid, ({ b with nextPid, processes, notes } : Backend).killFate op pid = b.killFate op pid := by
    intro pid
    simp only [Backend.killFate, Backend.endFate]
  have hpart : ∀ pid grace,
      ({ b with nextPid, processes, notes } : Backend).partFate op pid grace = b.partFate op pid grace := by
    intro pid grace
    cases grace with
    | none => exact hkill pid
    | some grace => simp only [Backend.partFate, hkill, Backend.endFate]
  have hstop : ∀ status pid grace,
      ({ b with nextPid, processes, notes } : Backend).stopFate op status pid grace = b.stopFate op status pid grace := by
    intro status pid grace
    simp only [Backend.stopFate, hpart]
  cases op with
  | start => simp only [Backend.fate, Backend.launchFate, Backend.launchFailure]
  | stop grace => simp only [Backend.fate, Fate.withProcess, Box.process, hstop]
  | pause => simp only [Backend.fate, Fate.withProcess, Box.process]
  | resume => simp only [Backend.fate, Fate.withProcess, Box.process]
  | remove force =>
    cases force with
    | true => simp only [Backend.fate, Fate.withProcess, Box.process, hstop]
    | false => simp only [Backend.fate]

section Hearing

namespace Backend

variable {b b' : Backend} {pid : Pid} {p : Process} {deadline : Option Nat} {clock : Nat}

theorem Hears.prompt {call : Call} {reply : Reply}
    (h : b.poll clock (.held (.call call) .pass clock) = (b', .replied reply))
    : b.Hears deadline (b', reply, clock) 1 clock (.held (.call call) .pass clock) :=
  .replied h rfl

theorem hears_signal (hp : b.process? pid = some p) (hending : p.ending = none) (force : Bool)
    (hheeds : (if force then b.refusesKill else b.ignoresRequests) = false) (deadline : Option Nat) (clock : Nat)
    : b.Hears deadline (b.exit pid (.signaled (if force then sigKill else sigTerm)), .done, clock) 1 clock
        (.held (.call (.terminate pid force)) .pass clock) := by
  apply Hears.prompt
  cases force with
  | true =>
    have hallowed : b.refusesKill = false := hheeds
    simp [poll, serve, hallowed, signal, hp, hending, pollServed]
  | false =>
    have hobeys : b.ignoresRequests = false := hheeds
    simp [poll, serve, hobeys, signal, hp, hending, pollServed]

theorem hears_ignored (hignores : b.ignoresRequests = true)
    : b.Hears deadline (b, .done, clock) 1 clock (.held (.call (.terminate pid false)) .pass clock) := by
  apply Hears.prompt
  simp [poll, serve, hignores, pollServed]

theorem hears_refused (hrefuses : b.refusesKill = true)
    : b.Hears deadline
        (b, .failed (.engine ("kill of pid " ++ toString pid ++ " not permitted")), clock) 1 clock
        (.held (.call (.terminate pid true)) .pass clock) := by
  apply Hears.prompt
  simp [poll, serve, hrefuses, pollServed]

theorem hears_setPaused (hp : b.process? pid = some p) (hending : p.ending = none) (paused : Bool)
    : b.Hears deadline (b.modifyProcess pid fun p => { p with paused }, .done, clock) 1 clock
        (.held (.call (if paused then .pause pid else .resume pid)) .pass clock) := by
  apply Hears.prompt
  cases paused <;> simp [poll, serve, setPaused, hp, hending, pollServed]

theorem hears_ended (h : b.Tidy) (hp : b.process? pid = some p) {how : ProcessEnd} (hending : p.ending = some how)
    : b.Hears deadline (b, .ended how, clock) 1 clock (.held (.call (.wait pid)) .pass clock) := by
  rcases (process?_eq_some h).mp hp with ⟨hmem, hpid, -⟩
  have hawaited : b.awaited pid = .replied (.ended how) := by
    rw [awaited, find?_eq_some_of_mem h hmem hpid]
    simp [hending]
  apply Hears.prompt
  simp [poll, serve, hp, pollServed, hawaited]

theorem hears_late (h : b.Tidy) (halive : b.isAlive pid = true) {due : Nat} (hdue : clock ≤ due)
    : ∃ n, n ≤ 3 ∧ b.Hears (some due) (b, .late, due) n clock (.held (.call (.wait pid)) .pass clock) := by
  have hlate : ∀ p : Pending, b.poll due p = (b, .awaiting pid) → b.Hears (some due) (b, .late, due) 1 due p :=
    fun p hpoll => .late hpoll (by simp) (by simp) rfl
  rcases Nat.eq_or_lt_of_le hdue with rfl | hlt
  . exact ⟨1, by decide, hlate _ (World.Backend.poll_wait h halive clock)⟩
  . refine ⟨3, by decide, .later (World.Backend.poll_wait h halive clock) (by simp) (by simp [hlt]) ?_
      (hlate _ (World.Backend.poll_awaiting h halive due))⟩
    simp [Pending.due?, hlt]

theorem min?_dues {due due' : Nat} (h : clock < due) (h' : clock < due')
    : (([due] ++ [due']).filter fun due => clock < due).min? = some (min due due') := by
  simp [h, h', List.min?_cons]

theorem launched_launching (b : Backend) (order : LaunchOrder) {due : Nat} (hdue : due ≤ clock)
    : b.pollServed clock (.launching order due) = ((b.launch order).1, .replied (b.launch order).2) := by
  simp [pollServed, hdue]

theorem hears_launch (b : Backend) (order : LaunchOrder) (clock span : Nat)
    : ∃ n, n ≤ 3 ∧
        b.Hears (some (clock + span))
          (if span < b.launchDelay then (b, .late, clock + span)
            else ((b.launch order).1, (b.launch order).2, clock + b.launchDelay))
          n clock (.held (.call (.launch order)) .pass clock) := by
  have hpoll : b.poll clock (.held (.call (.launch order)) .pass clock) =
      b.pollServed clock (.launching order (clock + b.launchDelay)) := by
    simp [poll, serve]
  have hstands : ∀ {time due : Nat}, time < due →
      b.poll time (.launching order due) = (b, .launching order due) := by
    intro time due hlt
    simp [poll, pollServed, Nat.not_le.mpr hlt]
  split
  . next hlate =>
    have hfirst : b.poll clock (.held (.call (.launch order)) .pass clock) =
        (b, .launching order (clock + b.launchDelay)) := by
      rw [hpoll]
      exact hstands (by omega)
    cases span with
    | zero => exact ⟨1, by decide, .late hfirst (by simp) (by simp) rfl⟩
    | succ span =>
      have hnext : min (clock + b.launchDelay) (clock + (span + 1)) = clock + (span + 1) := by omega
      refine ⟨3, by decide, .later hfirst (by simp) (by simp) ((min?_dues (by omega) (by omega)).trans (by rw [hnext]))
        (.late (hstands (by omega)) (by simp) (by simp) rfl)⟩
  . next hsoon =>
    cases hdelay : b.launchDelay with
    | zero =>
      refine ⟨1, by decide, .replied ?_ rfl⟩
      rw [hpoll, launched_launching b order (by omega)]
    | succ delay =>
      have hfirst : b.poll clock (.held (.call (.launch order)) .pass clock) =
          (b, .launching order (clock + (delay + 1))) := by
        rw [hpoll, hdelay]
        exact hstands (by omega)
      have hnext : min (clock + (delay + 1)) (clock + span) = clock + (delay + 1) := by omega
      refine ⟨3, by decide, .later hfirst (by simp) (by simp; omega)
        ((min?_dues (by omega) (by omega)).trans (by rw [hnext]))
        (.replied (launched_launching b order (Nat.le_refl _)) rfl)⟩

end Backend

end Hearing

namespace Fate

variable {f g : Fate} {box : Box} {b b' : Backend}

theorem launches_of_ne (h : f.edit ≠ .run) : f.launches = false := by
  simp [launches, h]

theorem backend_of_ne (h : f.edit ≠ .run)
    : f.backend box b = { b with processes := b.processes.map (f.touch box.record.pid), notes := b.notes ++ f.notes } := by
  simp [backend, launched, launches_of_ne h]

theorem touch_andThen (f g : Fate) (own : Option Pid) (p : Process)
    : g.touch own (f.touch own p) = (f.andThen g).touch own p := by
  by_cases hown : some p.pid = own ∧ p.lost = false
  . cases hpaused : g.paused <;> cases hending : g.ending <;> simp [touch, hown, andThen, hpaused, hending]
  . simp [touch, hown]

theorem backend_andThen (h : f.edit ≠ .run) : g.backend box (f.backend box b) = (f.andThen g).backend box b := by
  have htouch : g.touch box.record.pid ∘ f.touch box.record.pid = (f.andThen g).touch box.record.pid :=
    funext (touch_andThen f g _)
  rw [backend_of_ne h]
  simp only [backend, List.map_map, htouch, List.append_assoc]
  rfl

theorem touch_of_calm (hpaused : f.paused = none) (hending : f.ending = none) (own : Option Pid)
    : f.touch own = id := by
  funext p
  simp [touch, hpaused, hending]

theorem backend_of_calm (hrun : f.edit ≠ .run) (hpaused : f.paused = none) (hending : f.ending = none)
    : f.backend box b = { b with notes := b.notes ++ f.notes } := by
  simp [backend_of_ne hrun, touch_of_calm hpaused hending]

theorem note_eq (n : Note) (box : Box) (b : Backend) : b.note n = ({ notes := [n] } : Fate).backend box b := by
  rw [backend_of_calm (by simp) rfl rfl]
  rfl

theorem wait_eq (elapsed : Nat) (box : Box) (b : Backend) : b = ({ elapsed } : Fate).backend box b := by
  rw [backend_of_calm (by simp) rfl rfl]
  simp

theorem Meets.andThen {now : Moment} {clock clock' : Nat} {out : Backend × Nat × Move}
    (h : g.Meets box now b' clock' out) (hrun : f.edit ≠ .run) (hbackend : b' = f.backend box b)
    (hclock : clock' = clock + f.elapsed)
    : (f.andThen g).Meets box now b clock out where
  backend := by rw [h.backend, hbackend, backend_andThen hrun]
  time := by rw [h.time, hclock, Nat.add_assoc]; rfl
  next := h.next
  spec := h.spec
  record := by
    rw [h.record, hbackend, backend_of_ne hrun]
    rfl
  sample := h.sample
  removed := h.removed
  unlists := h.unlists

def Told (f : Fate) (most : Nat) (op : Operation) (limits : Limits) (now : Moment) (box : Box) (b : Backend)
    (clock : Nat) (previous : Option Nat) (m : Move) : Prop :=
  ∃ n out, n ≤ most ∧ Plays op limits now out n b clock previous m ∧ f.Meets box now b clock out

variable {op : Operation} {limits : Limits} {now : Moment} {clock most : Nat} {previous : Option Nat} {m : Move}
  {stage : Stage}

theorem Told.ended (h : f.Meets box now b clock (b, clock, m)) (halive : ∀ pid, .watch pid ∈ m.deeds → b.isAlive pid = true)
    : f.Told 0 op limits now box b clock previous m :=
  ⟨0, (b, clock, m), Nat.le_refl 0, .ended h.next halive rfl, h⟩

theorem Told.call (next : m.next = .wait stage) {heard : Backend × Reply × Nat} {n : Nat} (hn : n ≤ 3)
    (hears : (b.noteErrand (.call (stage.call m.box.spec))).Hears ((stage.bound limits).deadline clock previous) heard n
      clock (.held (.call (stage.call m.box.spec)) .pass clock))
    (hrun : f.edit ≠ .run) (hbackend : heard.1 = f.backend box b) (hclock : heard.2.2 = clock + f.elapsed)
    (rest : g.Told most op limits now box heard.1 heard.2.2 ((stage.bound limits).deadline clock previous)
      (op.proceed limits now (m.box.rewatch 0 m.deeds) stage heard.2.1))
    : (f.andThen g).Told (most + 3) op limits now box b clock previous m := by
  rcases rest with ⟨k, out, hk, hplays, hmeets⟩
  exact ⟨n + k, out, by omega, .call next hears hplays, hmeets.andThen hrun hbackend hclock⟩

theorem Told.last (next : m.next = .wait stage) {heard : Backend × Reply × Nat} {n : Nat} (hn : n ≤ 3)
    (hears : (b.noteErrand (.call (stage.call m.box.spec))).Hears ((stage.bound limits).deadline clock previous) heard n
      clock (.held (.call (stage.call m.box.spec)) .pass clock))
    {m' : Move} (hmove : op.proceed limits now (m.box.rewatch 0 m.deeds) stage heard.2.1 = m')
    (hwatch : ∀ pid, .watch pid ∈ m'.deeds → heard.1.isAlive pid = true)
    (hmeets : f.Meets box now b clock (heard.1, heard.2.2, m'))
    : f.Told 3 op limits now box b clock previous m := by
  subst hmove
  exact ⟨n + 0, _, hn, .call next hears (.ended hmeets.next hwatch rfl), hmeets⟩

section Stop

variable {pid : Pid}

theorem watch_not_mem_settleStop (c : Box) (op : Operation) (now : Moment) (pid : Pid) (forced : Bool)
    (code : Option Int) (pid' : Pid)
    : .watch pid' ∉ (c.settleStop op now pid forced code).deeds := by
  unfold Box.settleStop
  split
  . simp [Box.refuse]
  . cases op <;> simp [Box.unlist]

theorem meets_settleStop (hop : op.stops = true) (hactive : box.record.status.isActive = true) (forced : Bool)
    (how : ProcessEnd)
    : (b.endFate op pid forced how).Meets box now b clock
        (b, clock, ({ box with watch := none } : Box).settleStop op now pid forced how.code) := by
  have hmark := box.record.markTerminated_eq_ok now (Status.apply_stop_eq_ok.mpr ⟨hactive, rfl⟩) rfl
    (.stopped forced how.code)
  have hbackend : b.release pid = (b.endFate op pid forced how).backend box b := by
    rw [backend_of_calm (by simp [Backend.endFate]) rfl rfl]
    simp only [Backend.release, Backend.endFate]
    split
    . rw [List.append_nil]
    . rfl
  cases op with
  | stop grace =>
    simp only [Box.settleStop, hmark]
    exact ⟨hbackend, rfl, rfl, rfl, rfl, rfl, rfl, by simp [Backend.endFate, Operation.removes]⟩
  | remove force =>
    simp only [Box.settleStop, hmark]
    exact ⟨hbackend, rfl, rfl, rfl, rfl, rfl, rfl, by simp [Backend.endFate, Operation.removes, Box.unlist]⟩
  | start => cases hop
  | pause => cases hop
  | resume => cases hop

theorem told_settle (hop : op.stops = true) (hactive : box.record.status.isActive = true) (hb : b.Tidy)
    {p : Process} (hp : b.process? pid = some p) {how : ProcessEnd} (hending : p.ending = some how) {forced : Bool}
    (next : m.next = .wait stage) (hcall : stage.call m.box.spec = .wait pid)
    (hproceed : ∀ c, op.proceed limits now c stage (.ended how) = c.settleStop op now pid forced how.code)
    (hbox : m.box.rewatch 0 m.deeds = { box with watch := none })
    : (b.endFate op pid forced how).Told 3 op limits now box b clock previous m := by
  have hhears : (b.noteErrand (.call (stage.call m.box.spec))).Hears ((stage.bound limits).deadline clock previous)
      (b, .ended how, clock) 1 clock (.held (.call (stage.call m.box.spec)) .pass clock) := by
    rw [hcall]
    exact Backend.hears_ended hb hp hending
  apply Told.last next (by decide) hhears ((hproceed _).trans (by rw [hbox])) _
    (meets_settleStop hop hactive forced how)
  intro pid' hwatch
  exact absurd hwatch (watch_not_mem_settleStop _ op now pid forced how.code pid')

theorem Told.mono {most' : Nat} (h : f.Told most op limits now box b clock previous m) (hle : most ≤ most')
    : f.Told most' op limits now box b clock previous m := by
  rcases h with ⟨n, out, hn, hplays, hmeets⟩
  exact ⟨n, out, Nat.le_trans hn hle, hplays, hmeets⟩

theorem modifyProcess_eq (hpid : box.record.pid = some pid) (hrun : f.edit ≠ .run)
    : ({ b with notes := b.notes ++ f.notes } : Backend).modifyProcess pid
        (fun p => { p with paused := f.paused.getD p.paused, ending := f.ending <|> p.ending }) = f.backend box b := by
  rw [backend_of_ne hrun, hpid]
  simp only [Backend.modifyProcess]
  congr 2
  funext p
  simp [touch]

theorem exit_eq (hpid : box.record.pid = some pid) (n : Note) (how : ProcessEnd) (b : Backend)
    : (b.note n).exit pid how = ({ notes := [n], ending := some how } : Fate).backend box b :=
  modifyProcess_eq (f := { notes := [n], ending := some how }) hpid (by simp)

theorem process?_exit {p : Process} (hp : b.process? pid = some p) (how : ProcessEnd)
    : (b.exit pid how).process? pid = some { p with ending := some how } := by
  have hmap := Backend.process?_modifyProcess (b := b) (f := fun p => { p with ending := some how })
    (fun _ => ⟨rfl, rfl⟩) pid pid
  rwa [hp, Option.map_some, if_pos (Backend.pid_of_process? hp)] at hmap

theorem meets_refused {fault : Fault} (hbox : ∃ watch, m.box = { box with watch })
    (hdeeds : ∀ deed ∈ m.deeds, ∃ pid, deed = .watch pid) (hnext : m.next = .finish (.error fault))
    : (refused fault).Meets box now b clock (b, clock, m) := by
  rcases m with ⟨c, deeds, next⟩
  rcases hbox with ⟨watch, rfl⟩
  have hreleased : deeds.filterMap Deed.released? = [] := by
    rw [List.filterMap_eq_nil_iff]
    intro deed hdeed
    rcases hdeeds deed hdeed with ⟨pid, rfl⟩
    rfl
  have hunlists : .unlist ∉ deeds := by
    intro hmem
    rcases hdeeds _ hmem with ⟨pid, heq⟩
    cases heq
  refine ⟨?_, rfl, hnext, rfl, rfl, rfl, rfl, by simpa [refused] using hunlists⟩
  change (deeds.filterMap Deed.released?).foldl Backend.release b = _
  rw [hreleased, backend_of_calm (by simp [refused]) rfl rfl]
  simp [refused]

theorem told_killing (hop : op.stops = true) (hactive : box.record.status.isActive = true)
    (hpid : box.record.pid = some pid) (hb : b.Tidy) (halive : b.isAlive pid = true)
    (next : m.next = .wait (.killing pid)) (hbox : m.box.rewatch 0 m.deeds = { box with watch := none })
    : (b.killFate op pid).Told 6 op limits now box b clock previous m := by
  rcases (Option.any_eq_true ..).mp halive with ⟨p, hp, hlive⟩
  have hending : p.ending = none := by simpa using hlive
  have hnoted := (b.same_noteErrand (.call (.terminate pid true))).tidy hb
  unfold Backend.killFate
  split
  . next hrefuses =>
    apply Told.mono _ (by decide : 3 ≤ 6)
    apply Told.call next (by decide : 1 ≤ 3) (Backend.hears_refused hrefuses) (by simp) (note_eq _ box b) rfl
    apply Told.ended
    . exact meets_refused ⟨none, hbox⟩ (by simp [Operation.proceed]) rfl
    . intro pid' hwatch
      obtain rfl : pid' = pid := by simpa [Operation.proceed] using hwatch
      exact halive
  . next hallows =>
    apply Told.call next (by decide : 1 ≤ 3)
      (Backend.hears_signal (b := b.note (.terminate pid true)) hp hending true (eq_false_of_ne_true hallows) _ _)
      (by simp) (exit_eq hpid _ _ b) rfl
    apply told_settle hop hactive (Backend.tidy_exit hnoted _ _) (process?_exit hp _) rfl rfl rfl (fun _ => rfl)
    exact hbox

theorem told_part (hop : op.stops = true) (hactive : box.record.status.isActive = true)
    (hpid : box.record.pid = some pid) (hb : b.Tidy) (halive : b.isAlive pid = true) (grace : Option Span)
    (next : m.next = (box.part pid grace).next) (hbox : m.box.rewatch 0 m.deeds = { box with watch := none })
    : (b.partFate op pid grace).Told 12 op limits now box b clock previous m := by
  cases grace with
  | none => exact (told_killing hop hactive hpid hb halive next hbox).mono (by decide)
  | some grace =>
    rcases (Option.any_eq_true ..).mp halive with ⟨p, hp, hlive⟩
    have hending : p.ending = none := by simpa using hlive
    have hnoted := (b.same_noteErrand (.call (.terminate pid false))).tidy hb
    simp only [Backend.partFate]
    split
    . next hignores =>
      rcases Backend.hears_late hnoted halive (Nat.le_add_right clock grace.ticks) with ⟨n, hn, hlate⟩
      apply Told.call next (by decide : 1 ≤ 3) (Backend.hears_ignored hignores) (by simp) (note_eq _ box b) rfl
      apply Told.call (show _ = Next.wait (.parting pid) from rfl) hn hlate (by simp) (wait_eq grace.ticks box _) rfl
      exact told_killing hop hactive hpid hnoted halive rfl hbox
    . next hobeys =>
      apply Told.mono _ (by decide : 6 ≤ 12)
      apply Told.call next (by decide : 1 ≤ 3)
        (Backend.hears_signal (b := b.note (.terminate pid false)) hp hending false (eq_false_of_ne_true hobeys) _ _)
        (by simp) (exit_eq hpid _ _ b) rfl
      apply told_settle hop hactive (Backend.tidy_exit hnoted _ _) (process?_exit hp _) rfl rfl rfl (fun _ => rfl)
      exact hbox

theorem told_refused (fault : Fault)
    : (refused fault).Told 0 op limits now box b clock previous (box.refuse fault) :=
  .ended (meets_refused ⟨box.watch, rfl⟩ (by simp [Box.refuse]) rfl) (by simp [Box.refuse])

theorem told_withProcess {t : Transition} {go : Pid → Move} {fate : Pid → Fate} {most : Nat}
    (h : ∀ pid next, box.record.status.apply t = .ok next → box.record.pid = some pid →
      (fate pid).Told most op limits now box b clock previous (go pid))
    : (Fate.withProcess box t fate).Told most op limits now box b clock previous (box.withProcess t go) := by
  unfold Fate.withProcess Box.withProcess
  cases happly : box.record.status.apply t with
  | error fault => exact (told_refused fault).mono (Nat.zero_le most)
  | ok next =>
    dsimp only
    cases hpid : box.record.pid with
    | none =>
      simp only [Box.process, hpid]
      exact (told_refused _).mono (Nat.zero_le most)
    | some pid =>
      simp only [Box.process, hpid]
      exact h pid next happly hpid

theorem told_beginStop (hop : op.stops = true) (hb : b.Tidy)
    (halive : ∀ pid, box.record.status.isActive = true → box.record.pid = some pid → b.isAlive pid = true)
    (grace : Option Span)
    : (withProcess box .stop fun pid => b.stopFate op box.record.status pid grace).Told 15 op limits now box b clock
        previous (box.beginStop grace) := by
  apply told_withProcess
  intro pid next happly hpid
  have hactive := (Status.apply_stop_eq_ok.mp happly).1
  have hlives := halive pid hactive hpid
  dsimp only
  unfold Backend.stopFate
  split
  . next hpaused =>
    rcases (Option.any_eq_true ..).mp hlives with ⟨p, hp, hlive⟩
    have hnoted := (b.same_noteErrand (.call (.resume pid))).tidy hb
    have heased : ((b.note (.resume pid)).modifyProcess pid fun p => { p with paused := false }).Tidy :=
      Backend.tidy_modifyProcess hnoted fun _ => rfl
    have hgoes : ((b.note (.resume pid)).modifyProcess pid fun p => { p with paused := false }).isAlive pid = true := by
      have hmap := Backend.process?_modifyProcess (b := b.note (.resume pid)) (f := fun p => { p with paused := false })
        (fun _ => ⟨rfl, rfl⟩) pid pid
      rw [show (b.note (.resume pid)).process? pid = some p from hp, Option.map_some,
        if_pos (Backend.pid_of_process? hp)] at hmap
      exact (Option.any_eq_true ..).mpr ⟨_, hmap, hlive⟩
    apply Told.call (show _ = Next.wait (.easing pid grace) from rfl) (by decide : 1 ≤ 3)
      (Backend.hears_setPaused (b := b.note (.resume pid)) hp (by simpa using hlive) false) (by simp)
      (modifyProcess_eq (f := { notes := [.resume pid], paused := some false }) hpid (by simp)) rfl
    exact told_part hop hactive hpid heased hgoes grace (by cases grace <;> rfl) (by cases grace <;> rfl)
  . exact (told_part hop hactive hpid hb hlives grace (by cases grace <;> rfl) (by cases grace <;> rfl)).mono (by decide)

end Stop

section Launch

theorem told_failed (hcreated : box.record.status = .created) {reply : Reply} {n elapsed : Nat} (hn : n ≤ 3)
    (hears : (b.note (.launch box.spec.id)).Hears (some (clock + limits.start.ticks))
      (b.note (.launch box.spec.id), reply, clock + elapsed) n clock
      (.held (.call (.launch box.spec.launchOrder)) .pass clock))
    {message : String} (hreply : reply.launch limits = .error message)
    : Told
        { result := .error (.startFailed message), elapsed, notes := [.launch box.spec.id],
          edit := .finish .failed (.startFailed message) }
        3 .start limits now box b clock previous (box.await .launching) := by
  have hmark : box.record.markStartFailed now message =
      .ok (box.record.finish now .failed (.startFailed message)) := by
    simp [Record.markStartFailed, Status.apply_startFailed_eq_ok.mpr ⟨hcreated, rfl⟩]
  have hmove : Operation.start.proceed limits now box .launching reply =
      { box := { box with record := box.record.finish now .failed (.startFailed message) },
        deeds := [.count (.ended .failed false)], next := .finish (.error (.startFailed message)) } := by
    simp [Operation.proceed, hreply, Box.failStart, hmark]
  apply Told.last (b := b) (m := box.await .launching) rfl hn hears hmove (by simp)
  refine ⟨?_, rfl, rfl, rfl, rfl, rfl, rfl, by simp⟩
  rw [backend_of_calm (by simp) rfl rfl]
  rfl

theorem told_launched (hb : b.Tidy) (hcreated : box.record.status = .created) {n elapsed : Nat} (hn : n ≤ 3)
    (hears : (b.note (.launch box.spec.id)).Hears (some (clock + limits.start.ticks))
      ({ b with
          nextPid := b.nextPid + 1, processes := b.processes ++ [{ pid := b.nextPid, order := box.spec.launchOrder }],
          notes := b.notes ++ [.launch box.spec.id] },
        .launched b.nextPid, clock + elapsed) n clock (.held (.call (.launch box.spec.launchOrder)) .pass clock))
    : Told { elapsed, notes := [.launch box.spec.id], edit := .run } 3 .start limits now box b
        clock previous (box.await .launching) := by
  have hmark : box.record.markRunning now b.nextPid = .ok (Edit.run.apply now b.nextPid box.record) := by
    simp [Record.markRunning, Status.apply_start_eq_ok.mpr ⟨hcreated, rfl⟩, Edit.apply]
  have hmove : Operation.start.proceed limits now box .launching (.launched b.nextPid) =
      { box := { box with record := Edit.run.apply now b.nextPid box.record },
        deeds := [.count .started, .watch b.nextPid], next := .finish (.ok ()) } := by
    simp [Operation.proceed, Reply.launch, Box.succeedStart, hmark]
  apply Told.last (b := b) (m := box.await .launching) rfl hn hears hmove
  . intro pid hwatch
    obtain rfl : pid = b.nextPid := by simpa using hwatch
    have hnoted := (b.same_noteErrand (.call (.launch box.spec.launchOrder))).tidy hb
    exact (Backend.isAlive_iff (Backend.tidy_launch hnoted box.spec.launchOrder)).mpr
      ⟨_, List.mem_append_right _ (List.mem_singleton_self _), rfl, rfl, rfl⟩
  . refine ⟨?_, rfl, rfl, rfl, rfl, rfl, rfl, by simp⟩
    rw [backend, touch_of_calm rfl rfl, List.map_id]
    rfl

theorem told_launch (hb : b.Tidy) (hcreated : box.record.status = .created)
    : (b.launchFate limits box.spec).Told 3 .start limits now box b clock previous (box.await .launching) := by
  rcases (b.note (.launch box.spec.id)).hears_launch box.spec.launchOrder clock limits.start.ticks with ⟨n, hn, hhears⟩
  rw [show (b.note (.launch box.spec.id)).launchDelay = b.launchDelay from rfl] at hhears
  unfold Backend.launchFate Backend.launchFailure
  by_cases hlate : limits.start.ticks < b.launchDelay
  . rw [if_pos hlate] at hhears
    simp only [if_pos hlate, Nat.min_eq_right (Nat.le_of_lt hlate)]
    exact told_failed hcreated hn hhears rfl
  . rw [if_neg hlate] at hhears
    simp only [if_neg hlate, Nat.min_eq_left (Nat.le_of_not_lt hlate)]
    cases hpanics : b.launchPanics with
    | true =>
      rw [show (b.note (.launch box.spec.id)).launch box.spec.launchOrder =
        (b.note (.launch box.spec.id), .panicked "fake backend launch panic") by
          simp [Backend.launch, Backend.note, hpanics]] at hhears
      exact told_failed hcreated hn hhears rfl
    | false =>
      cases hfault : b.launchFault with
      | some reason =>
        rw [show (b.note (.launch box.spec.id)).launch box.spec.launchOrder =
          (b.note (.launch box.spec.id), .failed (.engine reason)) by
            simp [Backend.launch, Backend.note, hpanics, hfault]] at hhears
        exact told_failed hcreated hn hhears rfl
      | none =>
        have hlaunch : (b.note (.launch box.spec.id)).launch box.spec.launchOrder =
            ({ b with
                nextPid := b.nextPid + 1,
                processes := b.processes ++ [{ pid := b.nextPid, order := box.spec.launchOrder }],
                notes := b.notes ++ [.launch box.spec.id] },
              .launched b.nextPid) := by
          simp [Backend.launch, Backend.note, hpanics, hfault]
        rw [hlaunch] at hhears
        exact told_launched hb hcreated hn hhears

end Launch

section Rest

theorem told_unlist
    : Told { removes := true } 0 op limits now box b clock previous box.unlist := by
  apply Told.ended _ (by simp [Box.unlist])
  refine ⟨?_, rfl, rfl, rfl, rfl, rfl, rfl, by simp [Box.unlist]⟩
  rw [backend_of_calm (by simp) rfl rfl, List.append_nil]
  rfl

theorem told_turn (stage : Stage) (status : Status) {pid : Pid} (hpid : box.record.pid = some pid)
    (halive : b.isAlive pid = true) (paused : Bool)
    (hcall : stage.call box.spec = if paused then .pause pid else .resume pid)
    (hmove : op.proceed limits now box stage .done =
      { box := { box with record := (Edit.turn status).apply now b.nextPid box.record }, next := .finish (.ok ()) })
    : Told
        { notes := [if paused then .pause pid else .resume pid], paused := some paused, edit := .turn status }
        3 op limits now box b clock previous (box.await stage) := by
  rcases (Option.any_eq_true ..).mp halive with ⟨p, hp, hlive⟩
  let n : Note := if paused then .pause pid else .resume pid
  have hhears : (b.noteErrand (.call (stage.call box.spec))).Hears ((stage.bound limits).deadline clock previous)
      ((b.note n).modifyProcess pid fun p => { p with paused }, .done, clock) 1 clock
      (.held (.call (stage.call box.spec)) .pass clock) := by
    have hnoted : b.noteErrand (.call (stage.call box.spec)) = b.note n := by rw [hcall]; cases paused <;> rfl
    rw [hnoted, hcall]
    exact Backend.hears_setPaused (b := b.note n) hp (by simpa using hlive) paused
  apply Told.last (b := b) (m := box.await stage) rfl (by decide) hhears hmove (by simp)
  refine ⟨?_, rfl, rfl, rfl, rfl, rfl, rfl, by simp⟩
  exact modifyProcess_eq (f := { notes := [n], paused := some paused, edit := .turn status }) hpid (by simp)

theorem told_enter (hb : b.Tidy) (hlisted : box.removed = false)
    (hruns : box.record.status.isActive = true → ∃ pid, box.record.pid = some pid ∧ b.isAlive pid = true)
    (op : Operation)
    : (b.fate limits box op).Told 15 op limits now box b clock previous (op.enter box) := by
  have halive : ∀ pid, box.record.status.isActive = true → box.record.pid = some pid → b.isAlive pid = true := by
    intro pid hactive hpid
    rcases hruns hactive with ⟨pid', hpid', halive⟩
    rw [hpid] at hpid'
    cases hpid'
    exact halive
  simp only [Operation.enter, hlisted, Bool.false_eq_true, if_false]
  cases op with
  | start =>
    simp only [Backend.fate]
    cases happly : box.record.status.apply .start with
    | error fault => exact (told_refused fault).mono (Nat.zero_le 15)
    | ok next => exact (told_launch hb (Status.apply_start_eq_ok.mp happly).1).mono (by decide : 3 ≤ 15)
  | stop grace => exact told_beginStop rfl hb halive (some grace)
  | pause =>
    refine (told_withProcess ?_).mono (by decide : 3 ≤ 15)
    intro pid next happly hpid
    have hrunning := (Status.apply_pause_eq_ok.mp happly).1
    apply told_turn (.pausing pid) .paused hpid (halive pid (by rw [hrunning]; rfl) hpid) true rfl
    simp [Operation.proceed, Record.markPaused, Status.apply_pause_eq_ok.mpr ⟨hrunning, rfl⟩, Box.commit, Edit.apply]
  | resume =>
    refine (told_withProcess ?_).mono (by decide : 3 ≤ 15)
    intro pid next happly hpid
    have hpaused := (Status.apply_resume_eq_ok.mp happly).1
    apply told_turn (.resuming pid) .running hpid (halive pid (by rw [hpaused]; rfl) hpid) false rfl
    simp [Operation.proceed, Record.markResumed, Status.apply_resume_eq_ok.mpr ⟨hpaused, rfl⟩, Box.commit, Edit.apply]
  | remove force =>
    cases force with
    | true =>
      simp only [Backend.fate]
      split
      . exact told_beginStop rfl hb halive none
      . exact told_unlist.mono (Nat.zero_le 15)
    | false =>
      simp only [Backend.fate]
      cases box.record.status.ensureRemovable with
      | error fault => exact (told_refused fault).mono (Nat.zero_le 15)
      | ok removable => exact told_unlist.mono (Nat.zero_le 15)

end Rest

end Fate

section Notes

def Note.IsAbout (box : Box) : Note → Prop
  | .launch id => id = box.spec.id
  | .terminate pid _ | .pause pid | .resume pid | .release pid => box.record.pid = some pid
  | .shutdown => False

namespace Fate

variable {f g : Fate} {box : Box} {b : Backend} {op : Operation} {pid : Pid}

def KeepsTo (f : Fate) (box : Box) : Prop :=
  ∀ n ∈ f.notes, n.IsAbout box

theorem KeepsTo.andThen (hf : f.KeepsTo box) (hg : g.KeepsTo box) : (f.andThen g).KeepsTo box := by
  intro n hn
  rcases List.mem_append.mp hn with hn | hn
  . exact hf n hn
  . exact hg n hn

theorem keepsTo_single {n : Note} (h : n.IsAbout box) {f : Fate} (hf : f.notes = [n]) : f.KeepsTo box := by
  intro n' hn
  rw [hf, List.mem_singleton] at hn
  rw [hn]
  exact h

theorem keepsTo_silent {f : Fate} (hf : f.notes = []) : f.KeepsTo box := by
  intro n hn
  rw [hf] at hn
  cases hn

theorem keepsTo_end (hpid : box.record.pid = some pid) (forced : Bool) (how : ProcessEnd)
    : (b.endFate op pid forced how).KeepsTo box := by
  cases hplain : b.plain with
  | true => exact keepsTo_silent (by simp [Backend.endFate, hplain])
  | false => exact keepsTo_single (n := .release pid) hpid (by simp [Backend.endFate, hplain])

theorem keepsTo_kill (hpid : box.record.pid = some pid) : (b.killFate op pid).KeepsTo box := by
  unfold Backend.killFate
  split
  . exact (keepsTo_single (n := .terminate pid true) hpid rfl).andThen (keepsTo_silent rfl)
  . exact (keepsTo_single (n := .terminate pid true) hpid rfl).andThen (keepsTo_end hpid true _)

theorem keepsTo_part (hpid : box.record.pid = some pid) (grace : Option Span)
    : (b.partFate op pid grace).KeepsTo box := by
  have hasks : ∀ f : Fate, f.notes = [.terminate pid false] → f.KeepsTo box :=
    fun f hf => keepsTo_single (n := .terminate pid false) hpid hf
  cases grace with
  | none => exact keepsTo_kill hpid
  | some grace =>
    simp only [Backend.partFate]
    split
    . exact (hasks _ rfl).andThen ((keepsTo_silent rfl).andThen (keepsTo_kill hpid))
    . exact (hasks _ rfl).andThen (keepsTo_end hpid false _)

theorem keepsTo_stop (hpid : box.record.pid = some pid) (status : Status) (grace : Option Span)
    : (b.stopFate op status pid grace).KeepsTo box := by
  unfold Backend.stopFate
  split
  . exact (keepsTo_single (n := .resume pid) hpid rfl).andThen (keepsTo_part hpid grace)
  . exact keepsTo_part hpid grace

theorem keepsTo_withProcess {t : Transition} {go : Pid → Fate}
    (h : ∀ pid, box.record.pid = some pid → (go pid).KeepsTo box)
    : (withProcess box t go).KeepsTo box := by
  unfold withProcess
  split
  . exact keepsTo_silent rfl
  . cases hpid : box.record.pid with
    | none =>
      simp only [Box.process, hpid]
      exact keepsTo_silent rfl
    | some pid =>
      simp only [Box.process, hpid]
      exact h pid hpid

theorem keepsTo_fate (b : Backend) (limits : Limits) (box : Box) (op : Operation)
    : (b.fate limits box op).KeepsTo box := by
  cases op with
  | start =>
    simp only [Backend.fate]
    split
    . exact keepsTo_silent rfl
    . have hnotes : (b.launchFate limits box.spec).notes = [.launch box.spec.id] := by
        simp only [Backend.launchFate]
        generalize b.launchFailure limits = failure
        cases failure <;> rfl
      exact keepsTo_single (n := .launch box.spec.id) rfl hnotes
  | stop grace => exact keepsTo_withProcess fun pid hpid => keepsTo_stop hpid box.record.status (some grace)
  | pause => exact keepsTo_withProcess fun pid hpid => keepsTo_single (n := .pause pid) hpid rfl
  | resume => exact keepsTo_withProcess fun pid hpid => keepsTo_single (n := .resume pid) hpid rfl
  | remove force =>
    cases force with
    | true =>
      simp only [Backend.fate]
      split
      . exact keepsTo_withProcess fun pid hpid => keepsTo_stop hpid box.record.status none
      . exact keepsTo_silent rfl
    | false =>
      simp only [Backend.fate]
      split <;> exact keepsTo_silent rfl

end Fate

end Notes

end Simulation

end BoxRegistry
