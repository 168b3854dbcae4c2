import BoxRegistry.Text.Quoted

namespace BoxRegistry

inductive Fault where
  | invalidSpec (reason : String)
  | notFound (key : String)
  -- The status `source` of the box does not allow `action`.
  | invalidTransition (source action : String)
  | startFailed (reason : String)
  | stopFailed (reason : String)
  | setupFailed (reason : String)
  | unavailable (reason : String)
  | engine (reason : String)
  | config (reason : String)
  | storage (reason : String)
  | stopped (reason : String)
  | internal (reason : String)
  | io (reason : String)
deriving DecidableEq, Repr, Inhabited

namespace Fault

def message : Fault → String
  | invalidSpec reason => "invalid box spec: " ++ reason
  | notFound key => "box not found: " ++ key
  | invalidTransition source action =>
    "invalid transition: cannot " ++ action ++ " a box in state " ++ source
  | startFailed reason => "failed to start box: " ++ reason
  | stopFailed reason => "failed to stop box: " ++ reason
  | setupFailed reason => "runtime initialization failed: " ++ reason
  | unavailable reason => "metric unavailable: " ++ reason
  | engine reason => "engine error: " ++ reason
  | config reason => "configuration error: " ++ reason
  | storage reason => "storage error: " ++ reason
  | stopped reason => "runtime stopped: " ++ reason
  | internal reason => "internal error: " ++ reason
  | io reason => "io error: " ++ reason

def kind : Fault → String
  | invalidSpec _ => "InvalidSpec"
  | notFound _ => "NotFound"
  | invalidTransition .. => "InvalidTransition"
  | startFailed _ => "StartFailed"
  | stopFailed _ => "StopFailed"
  | setupFailed _ => "RuntimeInit"
  | unavailable _ => "Unavailable"
  | engine _ => "Engine"
  | config _ => "Config"
  | storage _ => "Storage"
  | stopped _ => "Stopped"
  | internal _ => "Internal"
  | io _ => "Io"

/--
The fault of a kind with what it says beside that. The two sides of a transition that was refused are
divided by the first bar.
-/
def ofKind? (kind reason : String) : Option Fault :=
  match kind with
  | "InvalidSpec" => some (invalidSpec reason)
  | "NotFound" => some (notFound reason)
  | "InvalidTransition" =>
    let source := reason.toList.takeWhile (· ≠ '|')
    match reason.toList.drop source.length with
    | _ :: action => some (invalidTransition (String.ofList source) (String.ofList action))
    | [] => some (invalidTransition reason "")
  | "StartFailed" => some (startFailed reason)
  | "StopFailed" => some (stopFailed reason)
  | "RuntimeInit" => some (setupFailed reason)
  | "Unavailable" => some (unavailable reason)
  | "Engine" => some (engine reason)
  | "Config" => some (config reason)
  | "Storage" => some (storage reason)
  | "Stopped" => some (stopped reason)
  | "Internal" => some (internal reason)
  | "Io" => some (io reason)
  | _ => none

def reason : Fault → String
  | invalidTransition source action => source ++ "|" ++ action
  | invalidSpec reason | notFound reason | startFailed reason | stopFailed reason
  | setupFailed reason | unavailable reason | engine reason | config reason | storage reason
  | stopped reason | internal reason | io reason => reason

def inspect (f : Fault) : String :=
  f.kind ++ "(" ++ Text.quoted f.reason ++ ")"

def isUnavailable : Fault → Bool
  | unavailable _ => true
  | _ => false

def isNotFound : Fault → Bool
  | notFound _ => true
  | _ => false

def isInvalidTransition : Fault → Bool
  | invalidTransition .. => true
  | _ => false

/--
A fault of setting the service up, with what was being done. A fault that is one already is kept.
-/
def duringSetup (context : String) : Fault → Fault
  | setupFailed reason => setupFailed reason
  | f => setupFailed (context ++ ": " ++ f.message)

end Fault

end BoxRegistry
