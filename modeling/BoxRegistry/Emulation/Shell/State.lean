import BoxRegistry.Host.Signal
import BoxRegistry.Lifecycle.Record
import BoxRegistry.Emulation.Shell.Syntax

/-!
This module contains the state of a shell that runs a script: what it remembers, what it does, and what
is left to do after that. A shell takes small steps, so that it can be suspended, wait for other
processes and be interrupted by signals between any two of them.
-/

namespace BoxRegistry.Emulation.Shell

inductive Sink where
  -- The standard output of the box that a process belongs to.
  | out
  | err
  | nowhere
deriving DecidableEq, Repr, Inhabited

structure Streams where
  out : Sink := .out
  err : Sink := .err
deriving DecidableEq, Repr, Inhabited

inductive Mode where
  | run (command : Command)
  -- Go on with what is left to do. The command before has ended with a status.
  | done (status : Nat)
  | child (pid : Pid)
  -- Wait for processes in the background, and report the status of the last of them if there is one to begin
  -- with.
  | wait (pids : List Pid) (status : Option Nat)
  -- Leave loops, and go on with the innermost one left if `again`.
  | leave (loops : Nat) (again : Bool)
  | exit (status : Nat)
deriving Repr, Inhabited

inductive Frame where
  | next (command : Command)
  | andAlso (command : Command)
  | orElse (command : Command)
  | negate
  | choose (yes no : Command)
  | test (untilDone : Bool) (cond body : Command)
  | again (untilDone : Bool) (cond body : Command)
  -- The command was the body of a loop over some fields.
  | each (name : String) (fields : List String) (body : Command)
  -- The output went elsewhere for the time of the command.
  | restore (streams : Streams)
  -- The command was the action of a trap; the status is that of the command before.
  | resume (status : Nat)
deriving Repr, Inhabited

inductive Trap where
  | ignore
  | action (script : String)
deriving DecidableEq, Repr, Inhabited

structure State where
  -- The name under which it was started, and its arguments.
  name : String
  args : List String := []
  self : Pid
  vars : List (String × String)
  -- The names of the variables that programs get to see.
  exported : List String
  status : Nat := 0
  -- The traps by signals; zero stands for the end of the script.
  traps : List (Host.Signal × Trap) := []
  -- The signals that came and whose traps are still to be run.
  arrived : List Host.Signal := []
  -- The processes in the background, and the last one that was started.
  jobs : List Pid := []
  lastJob : Option Pid := none
  streams : Streams := {}
  mode : Mode
  frames : List Frame := []
deriving Repr, Inhabited

namespace State

def var? (s : State) (name : String) : Option String :=
  s.vars.lookup name

def setVar (s : State) (name value : String) : State :=
  { s with vars := (name, value) :: s.vars.filter fun entry => entry.1 ≠ name }

def environment (s : State) : List (String × String) :=
  s.vars.filter fun entry => s.exported.contains entry.1

def trap? (s : State) (signal : Host.Signal) : Option Trap :=
  s.traps.lookup signal

def finish (s : State) (status : Nat) : State :=
  { s with status, mode := .done status }

def sinks (s : State) : List Sink :=
  let own := [s.streams.out, s.streams.err]
  own ++ s.frames.flatMap fun
    | .restore streams => [streams.out, streams.err]
    | _ => []

end State

end BoxRegistry.Emulation.Shell
