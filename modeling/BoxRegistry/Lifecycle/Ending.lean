import BoxRegistry.Lifecycle.ProcessEnd

namespace BoxRegistry

inductive Ending where
  | stopped (forced : Bool) (exitCode : Option Int)
  | exited (code : Int)
  -- Its process was killed by a signal nobody asked for.
  | crashed (signal : Option Int)
  | startFailed (message : String)
  | backendError (message : String)
  | terminated (code signal : Option Int)
deriving DecidableEq, Repr, Inhabited

namespace Ending

def optionText : Option Int → String
  | none => "None"
  | some i => "Some(" ++ toString i ++ ")"

def text : Ending → String
  | stopped true _ => "stopped (forced)"
  | stopped false _ => "stopped"
  | exited code => "exited with code " ++ toString code
  | crashed (some signal) => "crashed (signal " ++ toString signal ++ ")"
  | crashed none => "crashed"
  | startFailed message => "start failed: " ++ message
  | backendError message => "backend error: " ++ message
  | terminated code signal =>
    "terminated while paused (code " ++ optionText code ++ ", signal " ++ optionText signal ++ ")"

end Ending

end BoxRegistry
