import BoxRegistry.BoxId
import BoxRegistry.Json.Binary
import BoxRegistry.Json.Fields
import BoxRegistry.Lifecycle.Status
import BoxRegistry.Snapshot
import BoxRegistry.Time.Rfc3339

namespace BoxRegistry

open BoxRegistry.Json (shaped?)

def Status.toJson (s : Status) : Json := .string s.name

def Status.ofJson? (json : Json) : Option Status := json.named? Status.named

def Transition.toJson (t : Transition) : Json := .string t.name

def Transition.ofJson? (json : Json) : Option Transition := json.named? Transition.named

def BoxId.toJson (id : BoxId) : Json := .string id.text

def BoxId.ofJson? (json : Json) : Option BoxId := json.string?.map BoxId.mk

namespace Time.Moment

def toJson (m : Moment) : Json := .string (Rfc3339.render m)

def ofJson? (json : Json) : Option Moment := do
  Rfc3339.parse? (← json.string?)

end Time.Moment

namespace ProcessEnd

def toJson (e : ProcessEnd) : Json :=
  .record [("code", .ofOption .ofInt e.code), ("signal", .ofOption .ofInt e.signal)]

def ofJson? (json : Json) : Option ProcessEnd := do
  match ← shaped? [("code", .null), ("signal", .null)] json with
  | [some code, some signal] =>
    return { code := ← code.option? Json.int32?, signal := ← signal.option? Json.int32? }
  | _ => none

end ProcessEnd

namespace Usage

def cpuOfJson? : Json → Option Numeric.Single
  | .number n => n.single?
  | _ => none

def ofJson? (json : Json) : Option Usage := do
  match ← shaped? [("cpu_percent", .refused), ("memory_mib", .refused)] json with
  | [some cpu, some memory] => return { cpu := ← cpuOfJson? cpu, memoryMib := ← memory.unsigned? 64 }
  | _ => none

end Usage

end BoxRegistry
