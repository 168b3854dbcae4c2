import BoxRegistry.Home.FileTree
import BoxRegistry.Host.System
import BoxRegistry.Emulation.Shell.Output

namespace BoxRegistry.Emulation

open Host (Environment Bounds)
open Shell (bytes)

namespace Program

def installed : List String :=
  ["sh", "dash", "sleep", "true", "false", "echo", "printf", "cat", "env", "printenv", "nproc",
   "test", "[", "seq", "yes", "kill", "pwd"]

def directories : List Place := [["bin"], ["usr", "bin"]]

def hostFiles : FileTree :=
  let plain := ["bin", "dev", "etc", "home", "lib", "opt", "proc", "root", "run", "sbin", "srv", "sys",
    "tmp", "usr", "var"]
  { entries := plain.map (fun name => ([name], Entry.directory)) ++
      [(["usr", "bin"], .directory), (["usr", "lib"], .directory), (["usr", "local"], .directory),
       (["usr", "local", "bin"], .directory), (["var", "tmp"], .directory),
       (["etc", "passwd"], .file ""), (["etc", "hosts"], .file ""), (["etc", "hostname"], .file ""),
       (["etc", "group"], .file ""), (["dev", "null"], .file ""), (["dev", "zero"], .file "")] ++
      directories.flatMap fun directory =>
        installed.map fun name => (directory ++ [name], Entry.file name),
    origin := ["root"] }

def defaultPath : String := "/usr/local/sbin:/usr/local/bin:/usr/sbin:/usr/bin:/sbin:/bin"

def atPath (files : FileTree) (path : String) : Except PathFailure String := do
  let place ← files.resolve path
  if directories.contains place.dropLast then
    match files.entry? place with
    | some (.file name) => return name
    | _ => throw .denied
  else throw .denied

/--
The program of a name in the first of some directories that has it. A thing that cannot be run is
remembered, but does not end the search.
-/
def search (files : FileTree) (name : String) (denied : Bool) :
    List String → Except PathFailure String
  | [] => .error (if denied then .denied else .missing)
  | directory :: rest =>
    match atPath files (Path.join (if directory.isEmpty then "." else directory) name) with
    | .ok program => .ok program
    | .error .denied => search files name true rest
    | .error _ => search files name denied rest

def find (files : FileTree) (env : Environment) (image : String) : Except PathFailure String :=
  if image.isEmpty then .error .missing
  else if image.toList.contains '/' then atPath files image
  else if FileTree.nameLimit < image.utf8ByteSize then .error .nameTooLong
  else search files image false (((env.lookup "PATH").getD defaultPath).splitOn ":")

structure Behaviour where
  out : List UInt8 := []
  err : List UInt8 := []
  -- The milliseconds that it takes; there are none if it never ends.
  span : Option Nat := some 0
  code : Nat := 0
deriving DecidableEq, Repr, Inhabited

def duration? (text : String) : Option Nat :=
  let cs := text.toList
  let (digits, unit) :=
    match cs.getLast? with
    | some 's' => (cs.dropLast, 1)
    | some 'm' => (cs.dropLast, 60)
    | some 'h' => (cs.dropLast, 3600)
    | some 'd' => (cs.dropLast, 86400)
    | _ => (cs, 1)
  let whole := digits.takeWhile (· ≠ '.')
  let part := (digits.dropWhile (· ≠ '.')).drop 1
  let number? (cs : List Char) : Option Nat :=
    if cs.isEmpty then some 0 else Shell.number? (String.ofList cs)
  if whole.isEmpty ∧ part.isEmpty then none
  else do
    let scale := Nat.pow 10 part.length
    let value := (← number? whole) * scale + (← number? part)
    return (value * unit * 1000 + (scale - 1)) / scale

def sleepSpan (args : List String) : Behaviour :=
  if args.isEmpty then
    { err := bytes "sleep: missing operand\nTry 'sleep --help' for more information.\n", code := 1 }
  else
    match args.find? fun arg => arg ≠ "infinity" ∧ (duration? arg).isNone with
    | some bad =>
      { err := bytes ("sleep: invalid time interval '" ++ bad ++
          "'\nTry 'sleep --help' for more information.\n"), code := 1 }
    | none =>
      if args.contains "infinity" then { span := none }
      else { span := some ((args.filterMap duration?).foldl (· + ·) 0) }

def concatenate (files : FileTree) : List String → Behaviour
  | [] => {}
  | path :: rest =>
    let more := concatenate files rest
    if path = "-" then more
    else
      match files.find? path with
      | some (.file text) => { more with out := bytes text ++ more.out }
      | some .directory =>
        { more with err := bytes ("cat: " ++ path ++ ": Is a directory\n") ++ more.err, code := 1 }
      | none =>
        { more with
          err := bytes ("cat: " ++ path ++ ": No such file or directory\n") ++ more.err, code := 1 }

def holds? : List String → Option Bool
  | [] => some false
  | [text] => some !text.isEmpty
  | ["!", text] => some text.isEmpty
  | ["-n", text] => some !text.isEmpty
  | ["-z", text] => some text.isEmpty
  | ["-e", path] => some (hostFiles.find? path).isSome
  | ["-d", path] => some (hostFiles.isDirectory path)
  | ["-f", path] => some (hostFiles.read? path).isSome
  | [a, "=", b] => some (a = b)
  | [a, "!=", b] => some (a ≠ b)
  | [a, op, b] => do
    let a ← a.toInt?
    let b ← b.toInt?
    match op with
    | "-eq" => some (a = b)
    | "-ne" => some (a ≠ b)
    | "-lt" => some (a < b)
    | "-le" => some (a ≤ b)
    | "-gt" => some (a > b)
    | "-ge" => some (a ≥ b)
    | _ => none
  | ["!", a, op, b] => (holds? [a, op, b]).map (!·)
  | _ => none

def testCode (args : List String) : Nat :=
  match holds? args with
  | some true => 0
  | some false => 1
  | none => 2

def behaviour (files : FileTree) (bounds : Bounds) (env : Environment) (name : String)
    (args : List String) : Behaviour :=
  match name with
  | "true" => {}
  | "false" => { code := 1 }
  | "sleep" => sleepSpan args
  | "echo" =>
    if args.head? = some "-e" then { out := Shell.echo true args.tail }
    else { out := Shell.echo false args }
  | "printf" =>
    match args with
    | [] => { err := bytes "printf: missing operand\nTry 'printf --help' for more information.\n",
              code := 1 }
    | format :: args => { out := Shell.printf format (args.length + 1) args }
  | "cat" => concatenate files args
  | "nproc" => { out := bytes (toString bounds.width ++ "\n") }
  | "env" => { out := bytes (String.join (env.map fun (k, v) => k ++ "=" ++ v ++ "\n")) }
  | "printenv" =>
    match args with
    | [] => { out := bytes (String.join (env.map fun (k, v) => k ++ "=" ++ v ++ "\n")) }
    | names =>
      { out := bytes (String.join (names.filterMap fun k => (env.lookup k).map (· ++ "\n"))),
        code := if names.all fun k => (env.lookup k).isSome then 0 else 1 }
  | "test" => { code := testCode args }
  | "[" => { code := if args.getLast? = some "]" then testCode args.dropLast else 2 }
  | "seq" =>
    let numbers := args.filterMap Shell.number?
    let range : List Nat :=
      match numbers with
      | [last] => (List.range last).map (· + 1)
      | [first, last] => (List.range (last + 1 - first)).map (· + first)
      | _ => []
    { out := bytes (String.join (range.map fun n => toString n ++ "\n")) }
  | "yes" => { span := none }
  | "pwd" => { out := bytes "/root\n" }
  | _ => {}

end Program

end BoxRegistry.Emulation
