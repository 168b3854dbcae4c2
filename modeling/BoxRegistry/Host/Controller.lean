import BoxRegistry.Backend.Errand
import BoxRegistry.Host.ChildTable
import BoxRegistry.Host.System
import BoxRegistry.Spec

/-!
This module contains the backend that runs each box as a process of the host, in a group of its own and
within the bounds of the box. The end of a process is published a moment after it has happened.
-/

namespace BoxRegistry.Host

structure ProcessController (κ : Type) where
  kernel : κ
  table : ChildTable := {}
  -- The processes of the boxes that were launched, by the ids of the boxes.
  launched : List (BoxId × Pid) := []

namespace ProcessController

def name : String := "process"

def idVariable : String := "BOXLITE_BOX_ID"

def holdsZero (text : String) : Bool :=
  text.toList.contains '\x00'

/--
The environment of a box: that of the host, the variables of the box, of which the later ones win, and
its id.
-/
def environment (host : Environment) (order : LaunchOrder) : Environment :=
  let own := order.env.foldl (fun (env : Environment) (name, value) => env.set name value) host
  own.set idVariable order.boxId.text

def isSpoiled (order : LaunchOrder) : Bool :=
  holdsZero order.image || order.args.any holdsZero ||
    order.env.any fun (name, value) => holdsZero name || holdsZero value

variable {κ : Type}

def processOf? (c : ProcessController κ) (id : BoxId) : Option Pid :=
  c.launched.lookup id

variable [System κ]

def spawn (c : ProcessController κ) (order : LaunchOrder) : Except String (κ × Pid) :=
  if isSpoiled order then .error "nul byte found in provided data"
  else
    System.start c.kernel order.image order.args (environment (System.env c.kernel) order)
      ((System.bounds c.kernel).ofBox order.cpus order.memoryMib)

def launch (c : ProcessController κ) (order : LaunchOrder) : ProcessController κ × Reply :=
  match c.spawn order with
  | .error reason =>
    (c, .failed (.engine ("Failed to spawn box process " ++ order.image ++ ": " ++ reason)))
  | .ok (kernel, pid) =>
    ({ kernel, table := c.table.register pid, launched := (order.boxId, pid) :: c.launched }, .launched pid)

/--
Send a signal to the group of a process. The second component tells whether there was anything left of
the group: a process whose end is not published yet counts.
-/
def signal (c : ProcessController κ) (pid : Pid) (signal : Signal) : ProcessController κ × Bool :=
  let present := System.isReachable c.kernel (-(pid : Int)) || c.table.live.contains pid
  ({ c with kernel := System.send c.kernel (-(pid : Int)) signal }, present)

def terminate (c : ProcessController κ) (pid : Pid) (force : Bool) : ProcessController κ × Reply :=
  match c.table.hasExited pid with
  | .error f => (c, .failed f)
  | .ok true => (c, .done)
  | .ok false => ((c.signal pid (if force then Signal.kill else Signal.terminate)).1, .done)

def steer (c : ProcessController κ) (pid : Pid) (signal : Signal) : ProcessController κ × Reply :=
  let ended : Reply := .failed (.engine ("process " ++ toString pid ++ " is not running"))
  match c.table.hasExited pid with
  | .error f => (c, .failed f)
  | .ok true => (c, ended)
  | .ok false =>
    match c.signal pid signal with
    | (c, true) => (c, .done)
    | (c, false) => (c, ended)

def shutdown (c : ProcessController κ) : ProcessController κ :=
  c.table.live.foldl (fun c pid => (c.signal pid Signal.kill).1) c

def begin (c : ProcessController κ) (_clock : Nat) : Errand → ProcessController κ × Pending
  | .call (.launch order) =>
    let (c, reply) := c.launch order
    (c, .replied reply)
  | .call (.terminate pid force) =>
    let (c, reply) := c.terminate pid force
    (c, .replied reply)
  | .call (.wait pid) => (c, c.table.wait pid)
  | .call (.pause pid) =>
    let (c, reply) := c.steer pid Signal.halt
    (c, .replied reply)
  | .call (.resume pid) =>
    let (c, reply) := c.steer pid Signal.proceed
    (c, .replied reply)
  | .shutdown => (c.shutdown, .replied .done)

def poll (c : ProcessController κ) (_clock : Nat) (pending : Pending) : ProcessController κ × Pending :=
  (c, c.table.hear pending)

def unpublished (c : ProcessController κ) (clock : Nat) : List (Pid × ProcessEnd) :=
  c.table.live.filterMap fun pid => do
    let (how, ended) ← System.ended? c.kernel pid
    if ended < clock then some (pid, how) else none

def reap (t : ChildTable) (pid : Pid) (how : ProcessEnd) : ChildTable :=
  match t.child? pid with
  | some child => (t.publish child.channel (.ok how)).prune pid
  | none => t

def moveTo (c : ProcessController κ) (clock : Nat) : ProcessController κ :=
  { c with
    kernel := System.moveTo c.kernel clock,
    table := (c.unpublished clock).foldl (fun t (pid, how) => reap t pid how) c.table }

def due? (c : ProcessController κ) : Option Nat :=
  let next := System.clock c.kernel + 1
  let ends := (c.unpublished next).map fun _ => next
  (ends ++ (System.due? c.kernel).toList).min?

def isOver (c : ProcessController κ) : Pending → Bool
  | .awaiting channel => (c.table.published? channel).isSome
  | _ => false

def isAlive (c : ProcessController κ) (pid : Pid) : Bool :=
  System.isReachable c.kernel pid || c.table.live.contains pid

/--
Let time pass until a test holds or nothing happens any more, for a number of changes at most. The second
component tells whether the test holds.
-/
def await (test : ProcessController κ → Bool) : Nat → ProcessController κ → ProcessController κ × Bool
  | 0, c => (c, test c)
  | fuel + 1, c =>
    if test c then (c, true)
    else
      match c.due? with
      | none => (c, false)
      | some clock => await test fuel (c.moveTo clock)

instance : Engine (ProcessController κ) Empty where
  begin := begin
  poll := poll
  release c pid := { c with table := c.table.release pid }
  happen _ e := nomatch e
  isOver := isOver
  due? := due?
  moveTo := moveTo

end ProcessController

end BoxRegistry.Host
