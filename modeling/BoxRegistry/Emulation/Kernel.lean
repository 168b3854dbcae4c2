import BoxRegistry.Emulation.Shell.Machine

/-!
This module contains the processes of a host and how they run. A process runs as far as it can at each
millisecond of the clock, up to a number of steps; a process that sleeps goes on when its time has come.
A signal to a group reaches all of its processes.
-/

namespace BoxRegistry.Emulation

open Host (Signal Bounds Environment)
open Shell (Image Act Sink Streams View)

inductive Activity where
  | shell (state : Shell.State)
  -- It ends with a code once a time has come, if there is one.
  | sleep (due : Option Nat) (code : Nat)
deriving Inhabited

structure Process where
  pid : Pid
  group : Pid
  box : Pid
  activity : Activity
  streams : Streams := {}
  ignored : List Signal := []
  bounds : Bounds
  suspended : Bool := false
  held : List Signal := []
  ended : Option (ProcessEnd × Nat) := none
  quota : Nat
deriving Inhabited

structure Output where
  out : List UInt8 := []
  err : List UInt8 := []
deriving Inhabited

structure Kernel where
  clock : Nat := 0
  files : FileTree := Program.hostFiles
  env : Environment
  bounds : Bounds
  processes : List Process := []
  nextPid : Pid := 20000
  outputs : List (Pid × Output) := []
deriving Inhabited

namespace Process

def isLive (p : Process) : Bool :=
  p.ended.isNone

def sinks (p : Process) : List Sink :=
  match p.activity with
  | .shell s => s.sinks
  | .sleep .. => [p.streams.out, p.streams.err]

def finish (p : Process) (clock : Nat) (how : ProcessEnd) : Process :=
  if p.isLive then { p with ended := some (how, clock) } else p

/--
What a process does with a signal: a trap comes before everything else, but nothing helps against two of
the signals.
-/
def receive (p : Process) (clock : Nat) (signal : Signal) : Process :=
  let byDefault : Process :=
    match signal.default with
    | .ends => p.finish clock (.signaled (signal : Int))
    | .ignores => p
    | .halts => { p with suspended := true }
    | .proceeds => p
  if signal = Signal.kill ∨ signal = Signal.halt then byDefault
  else
    match p.activity with
    | .shell s =>
      match s.trap? signal with
      | some .ignore => p
      | some (.action _) => { p with activity := .shell { s with arrived := s.arrived ++ [signal] } }
      | none => if p.ignored.contains signal then p else byDefault
    | .sleep .. => if p.ignored.contains signal then p else byDefault

def deliver (p : Process) (clock : Nat) (signal : Signal) : Process :=
  if !p.isLive then p
  else if signal = Signal.proceed then
    p.held.foldl (fun p signal => p.receive clock signal)
      ({ p with suspended := false, held := [] }.receive clock signal)
  else if p.suspended ∧ signal ≠ Signal.kill then { p with held := p.held ++ [signal] }
  else p.receive clock signal

end Process

namespace Kernel

def processors : Nat := 256

def new : Kernel :=
  { env := [("PATH", Program.defaultPath), ("HOME", "/root")],
    bounds := { processors := List.replicate processors true } }

def pace : Nat := 200

def process? (k : Kernel) (pid : Pid) : Option Process :=
  k.processes.find? fun p => p.pid = pid

def modify (k : Kernel) (pid : Pid) (f : Process → Process) : Kernel :=
  { k with processes := k.processes.map fun p => if p.pid = pid then f p else p }

def isReachable (k : Kernel) (target : Int) : Bool :=
  k.processes.any fun p => p.isLive ∧ ((p.pid : Int) = target ∨ (p.group : Int) = -target)

def send (k : Kernel) (target : Int) (signal : Signal) : Kernel :=
  { k with processes := k.processes.map fun p =>
      if (p.pid : Int) = target ∨ (p.group : Int) = -target then p.deliver k.clock signal else p }

def output (k : Kernel) (box : Pid) : Output :=
  (k.outputs.lookup box).getD {}

def write (k : Kernel) (box : Pid) (sink : Sink) (bytes : List UInt8) : Kernel :=
  let before := k.output box
  let after : Output :=
    match sink with
    | .out => { before with out := before.out ++ bytes }
    | .err => { before with err := before.err ++ bytes }
    | .nowhere => before
  { k with outputs := (box, after) :: k.outputs.filter fun entry => entry.1 ≠ box }

def isClosed (k : Kernel) (box : Pid) : Bool :=
  !k.processes.any fun p => p.isLive ∧ p.box = box ∧ p.sinks.any fun sink => sink ≠ .nowhere

def become (k : Kernel) (pid : Pid) (image : Image) : Kernel :=
  match k.process? pid, image with
  | none, _ => k
  | some p, .shell s => k.modify pid fun _ => { p with activity := .shell { s with streams := p.streams } }
  | some p, .program path args env =>
    match Program.find k.files env path with
    | .error _ => k.modify pid fun p => p.finish k.clock (.exited 127)
    | .ok name =>
      if name = "sh" ∨ name = "dash" then
        match Shell.State.start? path args pid env with
        | some s =>
          let traps := p.ignored.map fun signal => (signal, Shell.Trap.ignore)
          k.modify pid fun p => { p with activity := .shell { s with traps, streams := p.streams } }
        | none =>
          let message :=
            if args.head? = some "-c" then path ++ ": 1: Syntax error: word unexpected\n"
            else path ++ ": 0: cannot open " ++ args.head?.getD "" ++ ": No such file\n"
          let k := k.write p.box p.streams.err (Shell.bytes message)
          k.modify pid fun p => p.finish k.clock (.exited 2)
      else
        let b := Program.behaviour k.files p.bounds env name args
        let k := (k.write p.box p.streams.out b.out).write p.box p.streams.err b.err
        k.modify pid fun p => { p with activity := .sleep (b.span.map (k.clock + ·)) b.code }

def add (k : Kernel) (group box : Option Pid) (image : Image) (streams : Streams)
    (ignored : List Signal) (bounds : Bounds) : Kernel :=
  let pid := k.nextPid
  let p : Process :=
    { pid, group := group.getD pid, box := box.getD pid, activity := .sleep none 0, streams, ignored,
      bounds, quota := pace }
  { k with processes := k.processes ++ [p], nextPid := pid + 1 }.become pid image

def act (pid : Pid) (k : Kernel) (a : Act) : Kernel :=
  match k.process? pid with
  | none => k
  | some p =>
    match a with
    | .write sink bytes => k.write p.box sink bytes
    | .spawn image streams ignored =>
      k.add (some p.group) (some p.box) image streams ignored p.bounds
    | .exec image streams ignored =>
      (k.modify pid fun p => { p with streams, ignored }).become pid image
    | .signal target signal => k.send (if target = 0 then -(p.group : Int) else target) signal
    | .bound bounds => k.modify pid fun p => { p with bounds }
    | .exit status => k.modify pid fun p => p.finish k.clock (.exited status)

def view (k : Kernel) (p : Process) : View :=
  { files := k.files, bounds := p.bounds, fresh := k.nextPid,
    ended? := fun pid => (k.process? pid).bind fun p => p.ended.map (·.1),
    exists? := fun target => k.isReachable (if target = 0 then -(p.group : Int) else target) }

def stepProcess (k : Kernel) (p : Process) : Option Kernel :=
  if !p.isLive ∨ p.suspended then none
  else
    match p.activity with
    | .sleep none _ => none
    | .sleep (some due) code =>
      if due ≤ k.clock then some (k.modify p.pid fun p => p.finish k.clock (.exited code)) else none
    | .shell s =>
      (s.step (k.view p)).map fun (s, acts) =>
        let k := k.modify p.pid fun p =>
          { p with activity := .shell s, streams := s.streams, quota := p.quota - 1 }
        acts.foldl (act p.pid) k

def settle : Nat → Kernel → Kernel
  | 0, k => k
  | fuel + 1, k =>
    match k.processes.findSome? fun p => if p.quota = 0 then none else k.stepProcess p with
    | some k => settle fuel k
    | none => k

def endurance : Nat := 20000

def run (k : Kernel) : Kernel :=
  k.settle endurance

def due? (k : Kernel) : Option Nat :=
  let busy := k.processes.any fun p => p.quota = 0 ∧ (k.stepProcess p).isSome
  let sleeping := k.processes.filterMap fun p =>
    match p.activity with
    | .sleep (some due) _ => if p.isLive ∧ !p.suspended ∧ k.clock < due then some due else none
    | _ => none
  if busy then some (k.clock + 1) else sleeping.min?

def moveTo (k : Kernel) (clock : Nat) : Kernel :=
  run { k with clock, processes := k.processes.map fun p => { p with quota := pace } }

end Kernel

end BoxRegistry.Emulation
