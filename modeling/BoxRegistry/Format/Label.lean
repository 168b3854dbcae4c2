import BoxRegistry.Snapshot
import BoxRegistry.Time.Rfc3339

namespace BoxRegistry

namespace Label

def ofOption (label : α → String) : Option α → String
  | none => "None"
  | some a => "Some(" ++ label a ++ ")"

def ofList (label : α → String) (as : List α) : String :=
  "[" ++ ", ".intercalate (as.map label) ++ "]"

def ofPair (entry : String × String) : String :=
  "(" ++ Text.quoted entry.1 ++ ", " ++ Text.quoted entry.2 ++ ")"

def ofFields? (kind : String) (fields : List (String × Option String)) : Option String := do
  let entries ← fields.mapM fun (name, label?) => label?.map fun label => name ++ ": " ++ label
  return kind ++ " \x7b " ++ ", ".intercalate entries ++ " \x7d"

end Label

def Status.label : Status → String
  | created => "Created"
  | running => "Running"
  | paused => "Paused"
  | stopped => "Stopped"
  | exited => "Exited"
  | failed => "Failed"

def Ending.label : Ending → String
  | stopped forced exitCode =>
    "Stopped \x7b forced: " ++ toString forced ++ ", exit_code: " ++ optionText exitCode ++ " \x7d"
  | exited code => "Exited \x7b code: " ++ toString code ++ " \x7d"
  | crashed signal => "Crashed \x7b signal: " ++ optionText signal ++ " \x7d"
  | startFailed message => "StartFailed \x7b message: " ++ Text.quoted message ++ " \x7d"
  | backendError message => "BackendError \x7b message: " ++ Text.quoted message ++ " \x7d"
  | terminated code signal =>
    "Terminated \x7b code: " ++ optionText code ++ ", signal: " ++ optionText signal ++ " \x7d"

def Spec.label? (s : Spec) : Option String :=
  Label.ofFields? "BoxConfig"
    [("id", s.id.label?), ("name", Label.ofOption Text.quoted s.name), ("image", Text.quoted s.image),
     ("cpus", toString s.cpus), ("memory_mib", toString s.memoryMib),
     ("args", Label.ofList Text.quoted s.args), ("env", Label.ofList Label.ofPair s.env),
     ("created_at", Time.Rfc3339.render s.createdAt)]

def LaunchOrder.label? (o : LaunchOrder) : Option String :=
  Label.ofFields? "LaunchSpec"
    [("box_id", o.boxId.label?), ("image", Text.quoted o.image), ("cpus", toString o.cpus),
     ("memory_mib", toString o.memoryMib), ("args", Label.ofList Text.quoted o.args),
     ("env", Label.ofList Label.ofPair o.env)]

def Usage.label (cpu : Numeric.Single → String) (u : Usage) : String :=
  "ResourceUsage \x7b cpu_percent: " ++ cpu u.cpu ++ ", memory_mib: " ++ toString u.memoryMib ++ " \x7d"

def Snapshot.label? (cpu : Numeric.Single → String) (s : Snapshot) : Option String :=
  Label.ofFields? "BoxInfo"
    [("id", s.id.label?), ("name", Label.ofOption Text.quoted s.name), ("status", s.status.label),
     ("image", Text.quoted s.image), ("cpus", toString s.cpus), ("memory_mib", toString s.memoryMib),
     ("pid", Label.ofOption toString s.pid), ("created_at", Time.Rfc3339.render s.createdAt),
     ("started_at", Label.ofOption Time.Rfc3339.render s.startedAt),
     ("ended_at", Label.ofOption Time.Rfc3339.render s.endedAt),
     ("exit_reason", Label.ofOption Ending.label s.ending),
     ("last_updated", Time.Rfc3339.render s.lastUpdated),
     ("usage", Label.ofOption (Usage.label cpu) s.usage)]

end BoxRegistry
