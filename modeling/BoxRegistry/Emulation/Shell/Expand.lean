import BoxRegistry.Emulation.Shell.Lexer
import BoxRegistry.Emulation.Shell.State

namespace BoxRegistry.Emulation.Shell

def State.param? (s : State) (name : String) : Option String :=
  match name with
  | "?" => some (toString s.status)
  | "$" => some (toString s.self)
  | "#" => some (toString s.args.length)
  | "!" => s.lastJob.map toString
  | "@" | "*" => some (" ".intercalate s.args)
  | "-" => some ""
  | "0" => some s.name
  | name =>
    match number? name with
    | some n => s.args[n - 1]?
    | none => s.var? name

/--
The value of a parameter, or of its fallback. An empty value counts as none if there is a fallback.
-/
def State.value (s : State) (name : String) (fallback : Option String) : String :=
  match s.param? name, fallback with
  | some value, none => value
  | some value, some fallback => if value.isEmpty then fallback else value
  | none, fallback => fallback.getD ""

structure Fields where
  closed : List String := []
  current : Option String := none

namespace Fields

def close (f : Fields) : Fields :=
  { closed := f.closed ++ f.current.toList }

def extend (f : Fields) (text : String) : Fields :=
  { f with current := some (f.current.getD "" ++ text) }

def split (f : Fields) (value : String) : Fields :=
  value.toList.foldl
    (fun f c => if c = ' ' ∨ c = '\t' ∨ c = '\n' then f.close else f.extend c.toString) f

def spread (f : Fields) : List String → Fields
  | [] => f
  | [last] => f.extend last
  | first :: rest => spread (f.extend first).close rest

end Fields

def State.expandParts (s : State) (f : Fields) : Word → Fields
  | [] => f
  | .text text quoted :: rest =>
    let f := if quoted ∨ !text.isEmpty then f.extend text else f
    s.expandParts f rest
  | .param name fallback quoted :: rest =>
    let f :=
      if quoted then
        if name = "@" then f.spread s.args else f.extend (s.value name fallback)
      else f.split (s.value name fallback)
    s.expandParts f rest

def State.expand (s : State) (word : Word) : List String :=
  (s.expandParts {} word).close.closed

def State.expandWhole (s : State) (word : Word) : String :=
  String.join <| word.map fun
    | .text text _ => text
    | .param name fallback _ => s.value name fallback

end BoxRegistry.Emulation.Shell
