import BoxRegistry.Fault
import BoxRegistry.Path
import BoxRegistry.Time.Span

namespace BoxRegistry

open Time (Span)

structure Limits where
  start : Span := .ofSeconds 30
  sample : Span := .ofMillis 500
  killGrace : Span := .ofSeconds 5
deriving DecidableEq, Repr, Inhabited

namespace Limits

def named (l : Limits) : List (String × Span) :=
  [("start_timeout", l.start), ("sample_timeout", l.sample), ("kill_grace", l.killGrace)]

def shutdownGrace : Span := .ofSeconds 10

end Limits

structure Settings where
  home : String
  limits : Limits := {}
deriving DecidableEq, Repr, Inhabited

namespace Settings

def homeName : String := ".boxlite"

/--
The home directory of the user: the one that a variable names unless it is empty, or else the one that
is registered for the user.
-/
def userHome (named registered : Option String) : Option String :=
  match named with
  | some home => if home.isEmpty then registered else some home
  | none => registered

/--
The default settings: the home is the one that the override names, or lies in the home directory of the
user, or in the working directory if there is none.
-/
def default (override userHome : Option String) : Settings :=
  match override with
  | some home => { home }
  | none => { home := Path.join (userHome.getD ".") homeName }

def validate (s : Settings) : Except Fault Unit :=
  if Path.isAbsolute s.home then
    match s.limits.named.find? fun limit => limit.2.nanos = 0 with
    | some (name, _) => .error (.config (name ++ " must be non-zero"))
    | none => .ok ()
  else
    .error (.config ("home_dir must be absolute, got " ++ s.home))

def check (s : Settings) : Except Fault Unit :=
  s.validate.mapError (Fault.duringSetup "invalid options")

end Settings

structure Layout where
  home : String
deriving DecidableEq, Repr, Inhabited

namespace Layout

def logsName : String := "logs"

def lockName : String := ".lock"

def logFileName : String := "boxlite.log"

def logs (l : Layout) : String := Path.join l.home logsName

def lock (l : Layout) : String := Path.join l.home lockName

end Layout

end BoxRegistry
