import BoxRegistry.Emulation.Program
import BoxRegistry.Emulation.Shell.Expand
import BoxRegistry.Emulation.Shell.Parser

/-!
This module contains the steps of a shell. A step depends on what the shell can see of its host and
gives the changed shell and what it does to the host. A shell that waits for a process makes no step.
-/

namespace BoxRegistry.Emulation.Shell

open Host (Signal Bounds Environment)

inductive Image where
  | program (name : String) (args : List String) (env : Environment)
  | shell (state : State)
deriving Inhabited

inductive Act where
  | write (sink : Sink) (output : List UInt8)
  | spawn (image : Image) (streams : Streams) (ignored : List Signal)
  | exec (image : Image) (streams : Streams) (ignored : List Signal)
  -- Send a signal to a process, or to the group of a negative number.
  | signal (target : Int) (signal : Signal)
  | bound (bounds : Bounds)
  | exit (status : Nat)
deriving Inhabited

structure View where
  files : FileTree
  bounds : Bounds
  fresh : Pid
  ended? : Pid → Option ProcessEnd
  -- Whether there is a process, or a group for a negative number.
  exists? : Int → Bool

def statusOf (how : ProcessEnd) : Nat :=
  match how.code, how.signal with
  | some code, _ => code.toNat
  | none, some signal => 128 + signal.toNat
  | none, none => 0

def State.start? (name : String) (args : List String) (self : Pid) (env : Environment) :
    Option State :=
  let fresh (args : List String) (name : String) (mode : Mode) : State :=
    { name, args, self, vars := env, exported := env.map (·.1), mode }
  match args with
  | "-c" :: script :: rest =>
    (parse? script).map fun command =>
      fresh rest.tail (rest.head?.getD name) (.run command)
  | "-ec" :: script :: rest | "-e" :: "-c" :: script :: rest =>
    (parse? script).map fun command => fresh rest.tail (rest.head?.getD name) (.run command)
  | [] => some (fresh [] name (.run .nothing))
  | _ => none

namespace State

def complain (s : State) (message : String) : Act :=
  .write s.streams.err (bytes (s.name ++ ": 1: " ++ message ++ "\n"))

def ignored (s : State) : List Signal :=
  (s.traps.filter fun entry => entry.2 = .ignore).map (·.1)

def fork (s : State) (command : Command) : State :=
  { s with
    traps := s.traps.filter fun entry => entry.2 = .ignore, arrived := [], jobs := [],
    mode := .run command, frames := [] }

def redirect (s : State) (streams : Streams) (r : Redirect) : Streams :=
  let target := s.expandWhole r.target
  let sink : Sink :=
    match r.mode, target with
    | ">&", "1" | _, "/dev/stdout" => streams.out
    | ">&", "2" | _, "/dev/stderr" => streams.err
    | _, _ => .nowhere
  if r.mode = "<" ∨ r.mode = "<&" then streams
  else if r.fd = 1 then { streams with out := sink }
  else if r.fd = 2 then { streams with err := sink }
  else streams

def redirectAll (s : State) (redirects : List Redirect) : Streams :=
  redirects.foldl s.redirect s.streams

def trapOf (action : String) : Trap :=
  if action.isEmpty then .ignore else .action action

def trapSignal? (text : String) : Option Signal :=
  if text = "EXIT" then some 0
  else Host.Signal.ofName? (if "SIG".toList.isPrefixOf text.toList then (text.drop 3).toString else text)

def setTraps (s : State) (trap : Option Trap) (names : List String) : State × List Act :=
  match names.find? fun name => (trapSignal? name).isNone with
  | some bad => (s.finish 1, [s.complain ("trap: " ++ bad ++ ": bad trap")])
  | none =>
    let signals := names.filterMap trapSignal?
    let others := s.traps.filter fun entry => !signals.contains entry.1
    let traps := match trap with
      | some trap => signals.map (fun signal => (signal, trap)) ++ others
      | none => others
    ({ s with traps }.finish 0, [])

def killTargets? : List String → Option (Signal × List String)
  | "-s" :: name :: rest | "-n" :: name :: rest =>
    (trapSignal? name).map fun signal => (signal, rest)
  | "--" :: rest => some (Host.Signal.terminate, rest)
  | first :: rest =>
    if first.toList.head? = some '-' then
      (trapSignal? (first.drop 1).toString).map fun signal =>
        (signal, if rest.head? = some "--" then rest.tail else rest)
    else some (Host.Signal.terminate, first :: rest)
  | [] => none

def kill (v : View) (s : State) (args : List String) : State × List Act :=
  match killTargets? args with
  | none => (s.finish 2, [s.complain "kill: Usage: kill [-s sigspec | -signum | -sigspec] [pid | job]..."])
  | some (signal, targets) =>
    let step (status : Nat) (acts : List Act) (target : String) : Nat × List Act :=
      match target.toInt? with
      | none => (2, acts ++ [s.complain ("kill: Illegal number: " ++ target)])
      | some n =>
        if v.exists? n then
          (status, if signal = 0 then acts else acts ++ [.signal n signal])
        else (1, acts ++ [s.complain "kill: No such process"])
    let (status, acts) := targets.foldl (fun (status, acts) target => step status acts target) (0, [])
    (s.finish status, acts)

def limitMemory (v : View) (s : State) (args : List String) : State × List Act :=
  let flags := args.filter fun arg => arg.toList.head? = some '-'
  let hard := flags.any fun flag => flag.toList.contains 'H'
  let soft := flags.any fun flag => flag.toList.contains 'S'
  let memory := flags.any fun flag => flag.toList.contains 'v'
  let shown (limit : Host.Ceiling) : String :=
    match limit with
    | some n => toString (n / 1024)
    | none => "unlimited"
  match args.find? fun arg => arg.toList.head? ≠ some '-' with
  | none =>
    let limit := if memory then (if hard then v.bounds.hard else v.bounds.soft) else none
    (s.finish 0, [.write s.streams.out (bytes (shown limit ++ "\n"))])
  | some value =>
    match if value = "unlimited" then some none else (number? value).map (some <| · * 1024) with
    | none => (s.finish 2, [s.complain ("ulimit: Illegal number: " ++ value)])
    | some (limit : Host.Ceiling) =>
      let raised : Bool := match limit, v.bounds.hard with
        | none, some _ => true
        | some n, some h => decide (h < n)
        | _, none => false
      if raised ∧ memory then
        (s.finish 2, [s.complain "ulimit: error setting limit (Operation not permitted)"])
      else if memory then
        let both := hard == soft
        let bounds := { v.bounds with
          soft := if both ∨ soft then limit else v.bounds.soft,
          hard := if both ∨ hard then limit else v.bounds.hard }
        (s.finish 0, [.bound bounds])
      else (s.finish 0, [])

def programEnv (s : State) (assigns : List (String × String)) : Environment :=
  assigns.foldl (fun env (name, value) => env.set name value) s.environment

/--
Start a program and wait for it. A program that nothing comes after runs in the place of the shell.
-/
def launch (v : View) (s : State) (assigns : List (String × String)) (streams : Streams)
    (name : String) (args : List String) (inPlace : Bool) : State × List Act :=
  let env := s.programEnv assigns
  match Program.find v.files env name with
  | .error .denied =>
    ({ s with streams }.finish 126 |> fun t => { t with streams := s.streams },
      [{ s with streams }.complain (name ++ ": Permission denied")])
  | .error _ => (s.finish 127, [{ s with streams }.complain (name ++ ": not found")])
  | .ok _ =>
    let image : Image := .program name args env
    if inPlace then (s, [.exec image streams s.ignored])
    else ({ s with mode := .child v.fresh }, [.spawn image streams s.ignored])

def assignAll (s : State) (assigns : List (String × String)) : State :=
  assigns.foldl (fun s (name, value) => s.setVar name value) s

def exportAll (s : State) (args : List String) : State :=
  args.foldl
    (fun s arg =>
      let name := String.ofList (arg.toList.takeWhile (· ≠ '='))
      let s := { s with exported := name :: s.exported }
      match arg.toList.dropWhile (· ≠ '=') with
      | _ :: value => s.setVar name (String.ofList value)
      | [] => s)
    s

def builtin? (v : View) (s : State) (name : String) (args : List String) :
    Option (State × List Act) :=
  let code (n : Nat) : Option (State × List Act) := some (s.finish n, [])
  let loops := (args.head?.bind number?).getD 1
  match name with
  | ":" | "true" => code 0
  | "false" => code 1
  | "echo" => some (s.finish 0, [.write s.streams.out (echo true args)])
  | "printf" =>
    match args with
    | [] => some (s.finish 2, [s.complain "printf: usage: printf format [arg ...]"])
    | format :: args =>
      some (s.finish 0, [.write s.streams.out (printf format (args.length + 1) args)])
  | "test" => code (Program.testCode args)
  | "[" =>
    if args.getLast? = some "]" then code (Program.testCode args.dropLast)
    else some (s.finish 2, [s.complain "[: missing ]"])
  | "exit" | "return" =>
    match args.head? with
    | none => some ({ s with mode := .exit s.status }, [])
    | some text =>
      match number? text with
      | some n => some ({ s with mode := .exit (n % 256) }, [])
      | none =>
        some ({ s with mode := .exit 2 }, [s.complain (name ++ ": Illegal number: " ++ text)])
  | "trap" =>
    match args with
    | [] => code 0
    | "--" :: action :: names => some (s.setTraps (some (trapOf action)) names)
    | "-" :: names => some (s.setTraps none names)
    | [only] => some (s.setTraps none [only])
    | action :: names =>
      if (number? action).isSome then some (s.setTraps none args)
      else some (s.setTraps (some (trapOf action)) names)
  | "kill" => some (s.kill v args)
  | "wait" =>
    match args.filterMap number? with
    | [] => some ({ s with mode := .wait s.jobs none, jobs := [] }, [])
    | pids =>
      if pids.all s.jobs.contains then
        let jobs := s.jobs.filter fun job => !pids.contains job
        some ({ s with mode := .wait pids (some 0), jobs }, [])
      else code 127
  | "ulimit" => some (s.limitMemory v args)
  | "break" => some ({ s with mode := .leave loops false }, [])
  | "continue" => some ({ s with mode := .leave loops true }, [])
  | "shift" =>
    if s.args.length < loops then some ({ s with mode := .exit 2 }, [s.complain "shift: can't shift that many"])
    else some ({ s with args := s.args.drop loops }.finish 0, [])
  | "export" => some ((s.exportAll args).finish 0, [])
  | "unset" =>
    some ({ s with vars := s.vars.filter fun entry => !args.contains entry.1 }.finish 0, [])
  | "set" =>
    if args.head? = some "--" then some ({ s with args := args.tail }.finish 0, []) else code 0
  | "read" => code 1
  | "cd" | "umask" => code 0
  | "eval" =>
    match parse? (" ".intercalate args) with
    | some command => some ({ s with mode := .run command }, [])
    | none => some ({ s with mode := .exit 2 }, [s.complain "Syntax error: word unexpected"])
  | _ => none

def runSimple (v : View) (s : State) (assigns : List (String × Word)) (words : List Word)
    (redirects : List Redirect) : State × List Act :=
  let assigns := assigns.map fun (name, word) => (name, s.expandWhole word)
  let streams := s.redirectAll redirects
  match words.flatMap s.expand with
  | [] => ((s.assignAll assigns).finish 0, [])
  | "exec" :: [] => ({ s with streams }.finish 0, [])
  | "exec" :: name :: args =>
    let (t, acts) := s.launch v assigns streams name args true
    match t.mode with
    | .done status => ({ t with mode := .exit status }, acts)
    | _ => (t, acts)
  | "command" :: name :: args | name :: args =>
    match { s.assignAll assigns with streams }.builtin? v name args with
    | some (t, acts) => ({ t with streams := s.streams }, acts)
    | none =>
      let calm := s.traps.all fun entry => entry.2 = .ignore
      s.launch v assigns streams name args (s.frames.isEmpty && s.jobs.isEmpty && calm)

def runCommand (v : View) (s : State) : Command → State × List Act
  | .nothing => ({ s with mode := .done s.status }, [])
  | .simple assigns words redirects => s.runSimple v assigns words redirects
  | .seq first second => ({ s with mode := .run first, frames := .next second :: s.frames }, [])
  | .andAlso first second =>
    ({ s with mode := .run first, frames := .andAlso second :: s.frames }, [])
  | .orElse first second =>
    ({ s with mode := .run first, frames := .orElse second :: s.frames }, [])
  | .negate body => ({ s with mode := .run body, frames := .negate :: s.frames }, [])
  | .background body =>
    ({ s with jobs := s.jobs ++ [v.fresh], lastJob := some v.fresh }.finish 0,
      [.spawn (.shell (s.fork body)) s.streams s.ignored])
  | .subshell body =>
    ({ s with mode := .child v.fresh }, [.spawn (.shell (s.fork body)) s.streams s.ignored])
  | .branch cond yes no => ({ s with mode := .run cond, frames := .choose yes no :: s.frames }, [])
  | .loop untilDone cond body =>
    ({ s with mode := .run cond, frames := .test untilDone cond body :: s.frames }, [])
  | .each name words body =>
    ({ s with mode := .done 0, frames := .each name (words.flatMap s.expand) body :: s.frames }, [])
  | .redirected body redirects =>
    ({ s with
        streams := s.redirectAll redirects, mode := .run body,
        frames := .restore s.streams :: s.frames }, [])

def resume (s : State) (status : Nat) : Frame → State
  | .next command => { s with mode := .run command }
  | .andAlso command => if status = 0 then { s with mode := .run command } else s
  | .orElse command => if status = 0 then s else { s with mode := .run command }
  | .negate => s.finish (if status = 0 then 1 else 0)
  | .choose yes no =>
    if status = 0 then { s with mode := .run yes } else { s with status := 0, mode := .run no }
  | .test untilDone cond body =>
    if (status = 0) = !untilDone then
      { s with mode := .run body, frames := .again untilDone cond body :: s.frames }
    else s.finish 0
  | .again untilDone cond body =>
    { s with mode := .run cond, frames := .test untilDone cond body :: s.frames }
  | .each name fields body =>
    match fields with
    | [] => s
    | field :: fields =>
      { (s.setVar name field) with mode := .run body, frames := .each name fields body :: s.frames }
  | .restore streams => { s with streams }
  | .resume status => s.finish status

def isLoopFrame : Frame → Bool
  | .again .. | .each .. => true
  | _ => false

def runTrap (s : State) (script : String) (status : Nat) : State :=
  match parse? script with
  | some command => { s with mode := .run command, frames := .resume status :: s.frames }
  | none => { s with mode := .exit 2 }

def step (v : View) (s : State) : Option (State × List Act) :=
  match s.mode with
  | .run command => some (s.runCommand v command)
  | .done status =>
    match s.arrived, s.frames with
    | signal :: arrived, _ =>
      let s := { s with arrived }
      match s.trap? signal with
      | some (.action script) => some (s.runTrap script status, [])
      | _ => some (s, [])
    | [], frame :: frames => some (({ s with frames }.resume status frame), [])
    | [], [] => some ({ s with mode := .exit status }, [])
  | .child pid => (v.ended? pid).map fun how => (s.finish (statusOf how), [])
  | .wait pids status =>
    match s.arrived, pids with
    | signal :: _, _ => some (s.finish (128 + signal), [])
    | [], [] => some (s.finish (status.getD 0), [])
    | [], pid :: rest =>
      (v.ended? pid).map fun how =>
        ({ s with mode := .wait rest (status.map fun _ => statusOf how) }, [])
  | .leave loops again =>
    match s.frames with
    | [] => some (s.finish 0, [])
    | frame :: frames =>
      let s := { s with frames }
      if isLoopFrame frame then
        if 1 < loops then some ({ s with mode := .leave (loops - 1) again }, [])
        else if again then some (s.resume 0 frame, [])
        else some (s.finish 0, [])
      else
        match frame with
        | .restore streams => some ({ s with streams }, [])
        | _ => some (s, [])
  | .exit status =>
    match s.trap? 0 with
    | some (.action script) =>
      let s := { s with traps := s.traps.filter fun entry => entry.1 ≠ 0, frames := [] }
      some (s.runTrap script status, [])
    | _ => some (s, [.exit status])

end State

end BoxRegistry.Emulation.Shell
