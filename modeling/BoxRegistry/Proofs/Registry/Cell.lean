import BoxRegistry.Proofs.Registry.Event

/-!
This module contains what a registry looks like from one box: the box itself and the duties of the tasks
that work on it. An event of the registry changes at most one such cell, by a function of the cell, so
what is said about one box can be proved as if there were no other.
-/

namespace BoxRegistry

open Time (Moment)

def Deed.spawns : Deed → Nat
  | watch _ => 1
  | count _ | disarm | release _ | unlist => 0

def Deed.effects (fresh : TaskId) : Deed → List Effect
  | watch _ => [.wake fresh]
  | release pid => [.release pid]
  | count _ | disarm | unlist => []

/--
A box and the duties of the tasks that work on it.
-/
@[ext]
structure Cell where
  box : Box
  duty : TaskId → Option Duty

namespace Cell

def assign (c : Cell) (task : TaskId) (duty : Duty) : Cell :=
  { c with duty := fun t => if t = task then some duty else c.duty t }

def dropTask (c : Cell) (task : TaskId) : Cell :=
  { c with duty := fun t => if t = task then none else c.duty t }

def disarm (c : Cell) : Cell where
  box := { c.box with watch := none }
  duty t := if c.box.watch = some t ∧ (c.duty t).any Duty.isVigil then none else c.duty t

def arm (c : Cell) (fresh : TaskId) (pid : Pid) : Cell :=
  let c := c.disarm.assign fresh (.post pid)
  { c with box := { c.box with watch := some fresh } }

def perform (c : Cell) (fresh : TaskId) : Deed → Cell
  | .watch pid => c.arm fresh pid
  | .disarm => c.disarm
  | .count _ | .release _ | .unlist => c

def performAll (c : Cell) (fresh : TaskId) : List Deed → Cell × List Effect
  | [] => (c, [])
  | deed :: deeds =>
    let (c, more) := (c.perform fresh deed).performAll (fresh + deed.spawns) deeds
    (c, deed.effects fresh ++ more)

def leave (c : Cell) (task : TaskId) : Cell × List Effect :=
  (({ c with box := c.box.handOver } : Cell).dropTask task,
    c.box.handOver.holder.toList.map Effect.wake)

def apply (c : Cell) (limits : Limits) (fresh : TaskId) (task : TaskId) (op : Operation) (m : Move) :
    Cell × List Effect :=
  let (c, effects) := ({ c with box := m.box } : Cell).performAll fresh m.deeds
  match m.next with
  | .wait stage =>
    (c.assign task (.work op stage),
      effects ++ [.call task (stage.call m.box.spec) (stage.bound limits)])
  | .finish result =>
    let (c, woken) := c.leave task
    (c, effects ++ woken ++ [.settled task result])
  | .crash message =>
    let (c, woken) := c.leave task
    (c, effects ++ woken ++ [.settled task (.error (.brokenOff task message))])

def notice (c : Cell) (fresh : TaskId) (now : Moment) (task : TaskId) (pid : Pid)
    (result : Except Fault ProcessEnd) : Cell × List Effect :=
  let (b, deeds) := c.box.noticeEnd now task pid result
  let (c, effects) := ({ c with box := b } : Cell).performAll fresh deeds
  let (c, woken) := c.leave task
  (c, effects ++ woken)

def withBox (c : Cell) (task : TaskId) (work : Cell → Cell × List Effect) : Cell × List Effect :=
  let (held, b) := c.box.claim task
  let c := { c with box := b }
  if held then work c else (c, [])

def turn (c : Cell) (limits : Limits) (fresh : TaskId) (now : Moment) (task : TaskId) :
    Cell × List Effect :=
  match c.duty task with
  | some (.enter op) => c.withBox task fun c => c.apply limits fresh task op (op.enter c.box)
  | some (.post pid) => (c.assign task (.watch pid), [.call task (.wait pid) .unlimited])
  | some (.notice pid result) => c.withBox task fun c => c.notice fresh now task pid result
  | some (.work ..) | some (.watch _) | none => (c, [])

def reply (c : Cell) (limits : Limits) (fresh : TaskId) (now : Moment) (task : TaskId) (reply : Reply) :
    Cell × List Effect :=
  match c.duty task with
  | some (.work op stage) => c.apply limits fresh task op (op.proceed limits now c.box stage reply)
  | some (.watch pid) =>
    match reply with
    | .panicked _ => (c.dropTask task, [])
    | _ => (c.assign task (.notice pid reply.ending)).turn limits fresh now task
  | some (.enter _) | some (.post _) | some (.notice ..) | none => (c, [])

def step (c : Cell) (limits : Limits) (fresh : TaskId) (slot : Slot) :
    Registry.Event → Cell × List Effect
  | .create .. => (c, [])
  | .begin s op => if s = slot then (c.assign fresh (.enter op), [.wake fresh]) else (c, [])
  | .turn now task => c.turn limits fresh now task
  | .reply now task r => c.reply limits fresh now task r
  | .describe s record reading =>
    if s = slot ∧ (Box.sampledPid? record).isSome then
      ({ c with box := { c.box with sample := reading <|> c.box.sample } }, [])
    else (c, [])

theorem disarm_of_idle {c : Cell} (h : ∀ w, c.box.watch = some w → (c.duty w).any Duty.isVigil = false)
    : c.disarm = { c with box := { c.box with watch := none } } := by
  ext t d
  . rfl
  . have hstays : ¬(c.box.watch = some t ∧ (c.duty t).any Duty.isVigil = true) := by
      rintro ⟨hwatch, hvigil⟩
      rw [h t hwatch] at hvigil
      cases hvigil
    simp only [disarm, if_neg hstays]

theorem disarm_of_vigil {c : Cell} {w : TaskId} (hwatch : c.box.watch = some w)
    (hvigil : (c.duty w).any Duty.isVigil = true)
    : c.disarm = ({ c with box := { c.box with watch := none } } : Cell).dropTask w := by
  ext t d
  . rfl
  . by_cases heq : t = w
    . simp [disarm, dropTask, hwatch, heq, hvigil]
    . simp [disarm, dropTask, hwatch, heq, Ne.symm heq]

inductive Applies (c : Cell) (limits : Limits) (fresh task : TaskId) (op : Operation) (m : Move) :
    Cell × List Effect → Prop where
  | waits {stage : Stage} (next : m.next = .wait stage) :
    Applies c limits fresh task op m
      ((performAll { c with box := m.box } fresh m.deeds).1.assign task (.work op stage),
        (performAll { c with box := m.box } fresh m.deeds).2 ++
          [.call task (stage.call m.box.spec) (stage.bound limits)])
  | leaves (result : Except Fault Unit) (quits : ∀ stage, m.next ≠ .wait stage) :
    Applies c limits fresh task op m
      (((performAll { c with box := m.box } fresh m.deeds).1.leave task).1,
        (performAll { c with box := m.box } fresh m.deeds).2 ++
          ((performAll { c with box := m.box } fresh m.deeds).1.leave task).2 ++ [.settled task result])

theorem applies (c : Cell) (limits : Limits) (fresh task : TaskId) (op : Operation) (m : Move)
    : c.Applies limits fresh task op m (c.apply limits fresh task op m) := by
  unfold apply
  dsimp only
  cases hnext : m.next with
  | wait stage => exact .waits hnext
  | finish result => exact .leaves result (by simp [hnext])
  | crash message => exact .leaves (.error (.brokenOff task message)) (by simp [hnext])

end Cell

end BoxRegistry
