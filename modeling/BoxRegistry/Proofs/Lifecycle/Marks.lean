import BoxRegistry.Proofs.Lifecycle.Course
import Mathlib.Data.List.Induction

/-!
This module contains what a record says after any marks, set in any order, with any arguments and by any
clock. The marks are given a second time as programs that write the fields of a record in place, one after
the other. Both ways agree, so a refused mark has written nothing. Its main statement is that the fields of
a record fit together after every call, and that times and reasons, once set, stay.
-/

namespace BoxRegistry

open Time (Moment)

namespace Record

inductive Mark where
  | running (pid : Pid)
  | startFailed (message : String)
  | paused
  | resumed
  | terminated (transition : Transition) (ending : Ending)

namespace Mark

def pid? : Mark → Option Pid
  | running pid => some pid
  | _ => none

def on (r : Record) (now : Moment) : Mark → Except Fault Record
  | running pid => r.markRunning now pid
  | startFailed message => r.markStartFailed now message
  | paused => r.markPaused now
  | resumed => r.markResumed now
  | terminated transition ending => r.markTerminated now transition ending

end Mark

structure Marking where
  now : Moment
  mark : Mark

/--
A program that writes to a record. What it wrote before it failed stays written.
-/
abbrev Writing := ExceptT Fault (StateM Record)

namespace Writing

def apply (t : Transition) : Writing Status := do
  ofExcept ((← get).status.apply t)

def tick (now : Moment) : Writing Moment := do
  let now := (← get).tick now
  modify ({ · with lastUpdated := now })
  return now

def finish (now : Moment) (status : Status) (ending : Ending) : Writing Unit := do
  let now ← tick now
  modify ({ · with status })
  modify ({ · with pid := none })
  modify ({ · with endedAt := some now })
  modify ({ · with ending := some ending })

def mark (now : Moment) : Mark → Writing Unit
  | .running pid => do
    let status ← apply .start
    let now ← tick now
    modify ({ · with status })
    modify ({ · with pid := some pid })
    modify ({ · with startedAt := some now })
  | .startFailed message => do
    let status ← apply .startFailed
    finish now status (.startFailed message)
  | .paused => do
    let status ← apply .pause
    modify ({ · with status })
    discard (tick now)
  | .resumed => do
    let status ← apply .resume
    modify ({ · with status })
    discard (tick now)
  | .terminated transition ending => do
    let status ← apply transition
    if !status.isTerminal then
      throw (.internal (transition.verb ++ " does not end a box lifecycle"))
    finish now status ending

theorem run_apply {α : Type} (t : Transition) (next : Status → Writing α) (r : Record)
    : (apply t >>= next).run.run r =
      match r.status.apply t with
      | .ok status => (next status).run.run r
      | .error f => (.error f, r) := by
  have h : (apply t >>= next).run.run r = ((ofExcept (r.status.apply t) : Writing Status) >>= next).run.run r := rfl
  rw [h]
  cases r.status.apply t <;> rfl

end Writing

namespace Marking

def write (m : Marking) (r : Record) : Except Fault Unit × Record :=
  (Writing.mark m.now m.mark).run.run r

theorem write_eq (m : Marking) (r : Record)
    : m.write r =
      match m.mark.on r m.now with
      | .ok r' => (.ok (), r')
      | .error f => (.error f, r) := by
  rcases m with ⟨now, mark⟩
  cases mark with
  | running pid =>
    rw [write, Writing.mark, Writing.run_apply, Mark.on, markRunning]
    cases r.status.apply .start <;> rfl
  | startFailed message =>
    rw [write, Writing.mark, Writing.run_apply, Mark.on, markStartFailed]
    cases r.status.apply .startFailed <;> rfl
  | paused =>
    rw [write, Writing.mark, Writing.run_apply, Mark.on, markPaused]
    cases r.status.apply .pause <;> rfl
  | resumed =>
    rw [write, Writing.mark, Writing.run_apply, Mark.on, markResumed]
    cases r.status.apply .resume <;> rfl
  | terminated transition ending =>
    rw [write, Writing.mark, Writing.run_apply, Mark.on, markTerminated]
    cases r.status.apply transition with
    | error f => rfl
    | ok status =>
      dsimp only [bind, Except.bind]
      cases status.isTerminal <;> rfl

end Marking

def after (r : Record) (ms : List Marking) : Record :=
  ms.foldl (fun r m => (m.write r).2) r

def accepted (r : Record) : List Marking → List Marking
  | [] => []
  | m :: ms => (if (m.write r).1.isOk then [m] else []) ++ (m.write r).2.accepted ms

def launches (r : Record) (ms : List Marking) : List Pid :=
  (r.accepted ms).filterMap (·.mark.pid?)

def EverRunning (r : Record) (ms : List Marking) : Prop :=
  ∃ earlier, earlier <+: ms ∧ (r.after earlier).status = .running

def times (createdAt : Moment) (r : Record) : List Moment :=
  createdAt :: r.startedAt.toList ++ r.endedAt.toList ++ [r.lastUpdated]

structure Chronicled (createdAt : Moment) (ms : List Marking) (r : Record) : Prop where
  process : r.pid.isSome = r.status.isActive
  launched : ∀ pid, r.pid = some pid → (new createdAt).launches ms = [pid]
  once : ((new createdAt).launches ms).length ≤ 1
  unlaunched : r.status = .created → (new createdAt).launches ms = []
  started : r.startedAt.isSome = true ↔ (new createdAt).EverRunning ms
  unstarted : r.status = .created → r.startedAt = none
  active : r.status.isActive = true → r.startedAt.isSome = true
  ended : r.endedAt.isSome = r.status.isTerminal
  ending : r.ending.isSome = r.status.isTerminal
  ordered : (times createdAt r).Pairwise (· ≤ ·)

/--
Of a later record: times and reasons, once set, stay, and its clock is not set back.
-/
structure Precedes (r r' : Record) : Prop where
  updated : r.lastUpdated ≤ r'.lastUpdated
  started : ∀ moment, r.startedAt = some moment → r'.startedAt = some moment
  ended : ∀ moment, r.endedAt = some moment → r'.endedAt = some moment
  ending : ∀ ending, r.ending = some ending → r'.ending = some ending

inductive Marked (r : Record) (m : Marking) : Record → Prop where
  | runs {pid : Pid} (mark : m.mark = .running pid) (created : r.status = .created)
    : Marked r m
      { r with
        status := .running, pid := some pid, startedAt := some (r.tick m.now), lastUpdated := r.tick m.now }
  | turns {status : Status} (mark : m.mark.pid? = none) (active : r.status.isActive = true)
    (stays : status.isActive = true) : Marked r m { r with status, lastUpdated := r.tick m.now }
  | ends {status : Status} {ending : Ending} (mark : m.mark.pid? = none) (live : r.status.isTerminal = false)
    (ended : status.isTerminal = true) : Marked r m (r.finish m.now status ending)

variable {r r' : Record} {m : Marking} {ms : List Marking} {createdAt : Moment}

theorem after_concat (r : Record) (ms : List Marking) (m : Marking)
    : r.after (ms ++ [m]) = (m.write (r.after ms)).2 := by
  simp [after]

theorem accepted_concat (r : Record) (ms : List Marking) (m : Marking)
    : r.accepted (ms ++ [m]) = r.accepted ms ++ if (m.write (r.after ms)).1.isOk then [m] else [] := by
  induction ms generalizing r with
  | nil => rw [List.nil_append, accepted, accepted, accepted, List.append_nil, List.nil_append]; rfl
  | cons first rest ih =>
    rw [List.cons_append, accepted, ih, accepted, List.append_assoc]
    rfl

theorem launches_concat_of_error {f : Fault} (h : m.mark.on (r.after ms) m.now = .error f)
    : r.launches (ms ++ [m]) = r.launches ms := by
  simp [launches, accepted_concat, Marking.write_eq, h, Except.isOk, Except.toBool]

theorem launches_concat_of_ok (h : m.mark.on (r.after ms) m.now = .ok r')
    : r.launches (ms ++ [m]) = r.launches ms ++ m.mark.pid?.toList := by
  rw [launches, accepted_concat, Marking.write_eq, h, List.filterMap_append]
  cases hpid : m.mark.pid? <;> simp [Except.isOk, Except.toBool, hpid, launches]

theorem everRunning_concat (r : Record) (ms : List Marking) (m : Marking)
    : r.EverRunning (ms ++ [m]) ↔ r.EverRunning ms ∨ (r.after (ms ++ [m])).status = .running := by
  constructor
  . rintro ⟨earlier, hearlier, hrunning⟩
    rcases List.prefix_concat_iff.mp hearlier with rfl | hearlier
    . exact .inr hrunning
    . exact .inl ⟨earlier, hearlier, hrunning⟩
  . rintro (⟨earlier, hearlier, hrunning⟩ | hrunning)
    . exact ⟨earlier, hearlier.trans (List.prefix_append ms [m]), hrunning⟩
    . exact ⟨_, List.prefix_rfl, hrunning⟩

theorem isTerminal_of_apply {s next : Status} {t : Transition} (h : s.apply t = .ok next) : s.isTerminal = false := by
  rw [Status.apply_eq_ok_iff] at h
  cases s <;> first | rfl | cases h

theorem marked_of_ok (h : m.mark.on r m.now = .ok r') : r.Marked m r' := by
  rcases m with ⟨now, mark⟩
  cases mark with
  | running pid =>
    rcases markRunning_eq_ok h with ⟨happly, rfl⟩
    exact .runs rfl (Status.apply_start_eq_ok.mp happly).1
  | startFailed message =>
    rcases markStartFailed_eq_ok h with ⟨happly, heq⟩
    have hended : r'.status.isTerminal = true := by rw [(Status.apply_startFailed_eq_ok.mp happly).2]; rfl
    rw [heq]
    exact .ends rfl (isTerminal_of_apply happly) hended
  | paused =>
    rcases markPaused_eq_ok h with ⟨happly, rfl⟩
    exact .turns rfl (by rw [(Status.apply_pause_eq_ok.mp happly).1]; rfl) rfl
  | resumed =>
    rcases markResumed_eq_ok h with ⟨happly, rfl⟩
    exact .turns rfl (by rw [(Status.apply_resume_eq_ok.mp happly).1]; rfl) rfl
  | terminated transition ending =>
    rcases eq_finish_of_markTerminated h with ⟨happly, hended, heq⟩
    rw [heq]
    exact .ends rfl (isTerminal_of_apply happly) hended

theorem le_tick (r : Record) (now : Moment) : r.lastUpdated ≤ r.tick now :=
  Moment.le_max_right now r.lastUpdated

theorem pairwise_later {earlier : List Moment} {last next : Moment} (h : (earlier ++ [last]).Pairwise (· ≤ ·))
    (hle : last ≤ next)
    : (earlier ++ [next, next]).Pairwise (· ≤ ·) := by
  rw [List.pairwise_append] at h ⊢
  refine ⟨h.1, by simp, ?_⟩
  intro moment hmem later hlater
  have hlast := h.2.2 moment hmem last (List.mem_singleton_self last)
  obtain rfl : later = next := by simpa using hlater
  exact Moment.le_trans hlast hle

theorem ordered_tick (h : (times createdAt r).Pairwise (· ≤ ·)) (now : Moment)
    : (createdAt :: r.startedAt.toList ++ r.endedAt.toList ++ [r.tick now, r.tick now]).Pairwise (· ≤ ·) :=
  pairwise_later h (r.le_tick now)

namespace Chronicled

theorem fresh (createdAt : Moment) : Chronicled createdAt [] (new createdAt) := by
  constructor
  case process => rfl
  case launched => rintro _ ⟨⟩
  case once => exact Nat.zero_le 1
  case unlaunched => exact fun _ => rfl
  case started =>
    refine ⟨nofun, ?_⟩
    rintro ⟨earlier, hearlier, hrunning⟩
    rw [List.prefix_nil.mp hearlier] at hrunning
    cases hrunning
  case unstarted => exact fun _ => rfl
  case active => rintro ⟨⟩
  case ended => rfl
  case ending => rfl
  case ordered => simp [times, new]

variable {next : List Marking}

theorem same (h : Chronicled createdAt ms r)
    (hlaunches : (new createdAt).launches next = (new createdAt).launches ms)
    (hran : (new createdAt).EverRunning next ↔ (new createdAt).EverRunning ms ∨ r.status = .running)
    : Chronicled createdAt next r := by
  constructor
  case launched => rw [hlaunches]; exact h.launched
  case once => rw [hlaunches]; exact h.once
  case unlaunched => rw [hlaunches]; exact h.unlaunched
  case started =>
    have hactive : r.status = .running → r.status.isActive = true := by rintro h; rw [h]; rfl
    rw [hran, h.started, or_iff_left_of_imp fun hrunning => h.started.mp (h.active (hactive hrunning))]
  case process => exact h.process
  case unstarted => exact h.unstarted
  case active => exact h.active
  case ended => exact h.ended
  case ending => exact h.ending
  case ordered => exact h.ordered

theorem runs (h : Chronicled createdAt ms r) (hcreated : r.status = .created) {pid : Pid} {now : Moment}
    (hlaunches : (new createdAt).launches next = [pid])
    (hran : (new createdAt).EverRunning next)
    : Chronicled createdAt next
      { r with status := .running, pid := some pid, startedAt := some (r.tick now), lastUpdated := r.tick now } := by
  have hended : r.endedAt = none := by
    rw [← Option.not_isSome_iff_eq_none, h.ended, hcreated]
    decide
  constructor
  case process => rfl
  case launched =>
    rintro _ ⟨⟩
    exact hlaunches
  case once => rw [hlaunches]; exact Nat.le_refl 1
  case unlaunched => rintro ⟨⟩
  case started => exact ⟨fun _ => hran, fun _ => rfl⟩
  case unstarted => rintro ⟨⟩
  case active => exact fun _ => rfl
  case ended => rw [h.ended, hcreated]; rfl
  case ending => rw [h.ending, hcreated]; rfl
  case ordered =>
    have hordered := ordered_tick h.ordered now
    rw [hended, h.unstarted hcreated] at hordered
    simpa [times, hended] using hordered

theorem turns (h : Chronicled createdAt ms r) (hactive : r.status.isActive = true) {status : Status}
    (hstays : status.isActive = true) {now : Moment}
    (hlaunches : (new createdAt).launches next = (new createdAt).launches ms)
    (hran : (new createdAt).EverRunning next ↔ (new createdAt).EverRunning ms ∨ status = .running)
    : Chronicled createdAt next { r with status, lastUpdated := r.tick now } := by
  have hcreated : status ≠ .created := by
    rintro rfl
    cases hstays
  have hstarted := h.active hactive
  constructor
  case process => rw [h.process, hactive, hstays]
  case launched => rw [hlaunches]; exact h.launched
  case once => rw [hlaunches]; exact h.once
  case unlaunched => exact fun hstatus => absurd hstatus hcreated
  case started => exact ⟨fun _ => hran.mpr (.inl (h.started.mp hstarted)), fun _ => hstarted⟩
  case unstarted => exact fun hstatus => absurd hstatus hcreated
  case active => exact fun _ => hstarted
  case ended => rw [h.ended, Status.isTerminal_of_isActive hactive, Status.isTerminal_of_isActive hstays]
  case ending => rw [h.ending, Status.isTerminal_of_isActive hactive, Status.isTerminal_of_isActive hstays]
  case ordered =>
    have hordered := ordered_tick h.ordered now
    rw [List.append_cons, List.pairwise_append] at hordered
    exact hordered.1

theorem ends (h : Chronicled createdAt ms r) (hlive : r.status.isTerminal = false) {status : Status} {ending : Ending}
    (hended : status.isTerminal = true) {now : Moment}
    (hlaunches : (new createdAt).launches next = (new createdAt).launches ms)
    (hran : (new createdAt).EverRunning next ↔ (new createdAt).EverRunning ms ∨ status = .running)
    : Chronicled createdAt next (r.finish now status ending) := by
  have hinactive := Status.isActive_of_isTerminal hended
  have hcreated : status ≠ .created := by
    rintro rfl
    cases hended
  have hrunning : status ≠ .running := by
    rintro rfl
    cases hinactive
  have hopen : r.endedAt = none := by
    rw [← Option.not_isSome_iff_eq_none, h.ended, hlive]
    decide
  constructor
  case process => exact hinactive.symm
  case launched => rintro _ ⟨⟩
  case once => rw [hlaunches]; exact h.once
  case unlaunched => exact fun hstatus => absurd hstatus hcreated
  case started => rw [hran, or_iff_left hrunning]; exact h.started
  case unstarted => exact fun hstatus => absurd hstatus hcreated
  case active =>
    intro hactive
    exact absurd (hactive.symm.trans hinactive) nofun
  case ended => exact hended.symm
  case ending => exact hended.symm
  case ordered =>
    have hordered := ordered_tick h.ordered now
    rw [hopen] at hordered
    simpa [times, finish] using hordered

end Chronicled

theorem chronicled (createdAt : Moment) (ms : List Marking)
    : Chronicled createdAt ms ((new createdAt).after ms) := by
  induction ms using List.reverseRecOn with
  | nil => exact .fresh createdAt
  | append_singleton ms m ih =>
    have hran := everRunning_concat (new createdAt) ms m
    rw [after_concat, Marking.write_eq] at hran ⊢
    cases hmark : m.mark.on ((new createdAt).after ms) m.now with
    | error f =>
      rw [hmark] at hran
      exact ih.same (launches_concat_of_error hmark) hran
    | ok r' =>
      have hlaunches := launches_concat_of_ok hmark
      rw [hmark] at hran
      cases marked_of_ok hmark with
      | runs hpid hcreated =>
        rw [ih.unlaunched hcreated, hpid] at hlaunches
        exact ih.runs hcreated hlaunches (hran.mpr (.inr rfl))
      | turns hpid hactive hstays =>
        rw [hpid, Option.toList_none, List.append_nil] at hlaunches
        exact ih.turns hactive hstays hlaunches hran
      | ends hpid hlive hended =>
        rw [hpid, Option.toList_none, List.append_nil] at hlaunches
        exact ih.ends hlive hended hlaunches hran

namespace Precedes

theorem refl (r : Record) : r.Precedes r :=
  ⟨Moment.le_refl _, fun _ h => h, fun _ h => h, fun _ h => h⟩

theorem trans {r₁ r₂ r₃ : Record} (h₁ : r₁.Precedes r₂) (h₂ : r₂.Precedes r₃) : r₁.Precedes r₃ where
  updated := Moment.le_trans h₁.updated h₂.updated
  started moment h := h₂.started moment (h₁.started moment h)
  ended moment h := h₂.ended moment (h₁.ended moment h)
  ending ending h := h₂.ending ending (h₁.ending ending h)

end Precedes

theorem Chronicled.precedes (h : Chronicled createdAt ms r) (hmarked : r.Marked m r') : r.Precedes r' := by
  have hle := r.le_tick m.now
  cases hmarked with
  | runs hpid hcreated =>
    refine ⟨hle, ?_, fun _ h => h, fun _ h => h⟩
    intro moment hstarted
    rw [h.unstarted hcreated] at hstarted
    cases hstarted
  | turns hpid hactive hstays => exact ⟨hle, fun _ h => h, fun _ h => h, fun _ h => h⟩
  | ends hpid hlive hended =>
    refine ⟨hle, fun _ h => h, ?_, ?_⟩
    . intro moment hopen
      have hsome := h.ended
      rw [hopen, hlive] at hsome
      cases hsome
    . intro ending hopen
      have hsome := h.ending
      rw [hopen, hlive] at hsome
      cases hsome

theorem precedes_after (createdAt : Moment) (ms later : List Marking)
    : ((new createdAt).after ms).Precedes ((new createdAt).after (ms ++ later)) := by
  induction later using List.reverseRecOn with
  | nil =>
    rw [List.append_nil]
    exact .refl _
  | append_singleton later m ih =>
    apply ih.trans
    rw [← List.append_assoc, after_concat, Marking.write_eq]
    cases hmark : m.mark.on ((new createdAt).after (ms ++ later)) m.now with
    | error f => exact .refl _
    | ok r' => exact (chronicled createdAt (ms ++ later)).precedes (marked_of_ok hmark)

/--
Whatever marks are set on a record, and whatever the clock shows, its fields fit each other after each of
them. What is marked later takes back no time and no reason, and a refused mark has changed nothing at all.
-/
theorem well_formed_after_marks (createdAt : Moment) (ms : List Marking)
    : Chronicled createdAt ms ((new createdAt).after ms)
      ∧ (∀ later, ((new createdAt).after ms).Precedes ((new createdAt).after (ms ++ later)))
      ∧ ∀ m : Marking,
        m.write ((new createdAt).after ms) =
          match m.mark.on ((new createdAt).after ms) m.now with
          | .ok r' => (.ok (), r')
          | .error f => (.error f, (new createdAt).after ms) :=
  ⟨chronicled createdAt ms, precedes_after createdAt ms, fun m => m.write_eq _⟩

-- The clock is set back before the end, and the mark that would end nothing is not dated.
example :
    (new ⟨100, 0⟩).after
      [⟨⟨120, 0⟩, .running 7⟩, ⟨⟨150, 0⟩, .terminated .pause (.exited 0)⟩, ⟨⟨90, 0⟩, .terminated .exit (.exited 0)⟩]
      = ⟨.exited, none, some ⟨120, 0⟩, some ⟨120, 0⟩, some (.exited 0), ⟨120, 0⟩⟩ := by
  decide

end Record

end BoxRegistry
