import BoxRegistry.Json.Binary
import BoxRegistry.Json.Fields
import BoxRegistry.Lifecycle.Ending

/-!
This module contains the JSON form of the reasons for which a box ended: an object whose field `kind`
names the reason, among the other fields in any order, or an array that begins with the name.

The name may come last, so all of the value has to be held in memory before any of it is understood:
that bounds its nesting and its numbers, also in fields that are then ignored.
-/

namespace BoxRegistry.Ending

open BoxRegistry.Json (shaped?)

def kind : Ending → String
  | stopped .. => "stopped"
  | exited .. => "exited"
  | crashed .. => "crashed"
  | startFailed .. => "start_failed"
  | backendError .. => "backend_error"
  | terminated .. => "terminated"

def fields : Ending → List (String × Json)
  | stopped forced exitCode =>
    [("forced", .bool forced), ("exit_code", .ofOption .ofInt exitCode)]
  | exited code => [("code", .ofInt code)]
  | crashed signal => [("signal", .ofOption .ofInt signal)]
  | startFailed message => [("message", .string message)]
  | backendError message => [("message", .string message)]
  | terminated code signal =>
    [("code", .ofOption .ofInt code), ("signal", .ofOption .ofInt signal)]

def toJson (e : Ending) : Json :=
  .record (("kind", .string e.kind) :: e.fields)

def ofFields? (kind : String) (json : Json) : Option Ending := do
  match kind with
  | "stopped" =>
    match ← shaped? [("forced", .refused), ("exit_code", .null)] json with
    | [some forced, some code] => return stopped (← forced.bool?) (← code.option? Json.int32?)
    | _ => none
  | "exited" =>
    match ← shaped? [("code", .refused)] json with
    | [some code] => return exited (← code.int32?)
    | _ => none
  | "crashed" =>
    match ← shaped? [("signal", .null)] json with
    | [some signal] => return crashed (← signal.option? Json.int32?)
    | _ => none
  | "start_failed" =>
    match ← shaped? [("message", .refused)] json with
    | [some message] => return startFailed (← message.string?)
    | _ => none
  | "backend_error" =>
    match ← shaped? [("message", .refused)] json with
    | [some message] => return backendError (← message.string?)
    | _ => none
  | "terminated" =>
    match ← shaped? [("code", .null), ("signal", .null)] json with
    | [some code, some signal] =>
      return terminated (← code.option? Json.int32?) (← signal.option? Json.int32?)
    | _ => none
  | _ => none

mutual

def holdable : Nat → Json → Bool
  | _, .null => true
  | _, .bool _ => true
  | _, .number n => n.representable
  | _, .string _ => true
  | _, .unpaired => false
  | depth, .array items => 0 < depth && holdableItems (depth - 1) items
  | depth, .object fields => 0 < depth && holdableFields (depth - 1) fields

def holdableItems : Nat → List Json → Bool
  | _, [] => true
  | depth, item :: items => holdable depth item && holdableItems depth items

def holdableFields : Nat → List (Option String × Json) → Bool
  | _, [] => true
  | depth, (key, value) :: fields =>
    key.isSome && holdable depth value && holdableFields depth fields

end

def depthLimit : Nat := 127

def ofJsonBelow? (levels : Nat) (json : Json) : Option Ending :=
  if holdable (depthLimit - levels) json then
    match json with
    | .object fields =>
      match Json.valuesOf "kind" fields with
      | [.string kind] => ofFields? kind (.object (fields.filter fun field => field.1 != some "kind"))
      | _ => none
    | .array (.string kind :: items) => ofFields? kind (.array items)
    | _ => none
  else
    none

def ofJson? (json : Json) : Option Ending := ofJsonBelow? 0 json

end BoxRegistry.Ending
