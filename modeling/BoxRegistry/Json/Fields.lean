import BoxRegistry.Json.Basic

/-!
This module contains the rules by which typed values are taken from JSON values: integers within a
range, lists, values that may be absent, and records.

A record is an object, whose unknown fields are ignored and whose known fields may not be
repeated, or an array of the fields in the order of their declaration.
-/

namespace BoxRegistry.Json

inductive Absence where
  | refused
  -- The field is taken to be `null`, but an array has to hold it.
  | null
  | default
deriving DecidableEq, Repr

abbrev Shape := List (String × Absence)

def intWithin? (low high : Int) : Json → Option Int
  | .number n => do
    let i ← n.int?
    if low ≤ i ∧ i ≤ high then some i else none
  | _ => none

def unsigned? (bits : Nat) (json : Json) : Option Nat :=
  (json.intWithin? 0 (Int.pow 2 bits - 1)).map Int.toNat

def int32? (json : Json) : Option Int :=
  json.intWithin? (-Int.pow 2 31) (Int.pow 2 31 - 1)

def string? : Json → Option String
  | .string text => some text
  | _ => none

def bool? : Json → Option Bool
  | .bool b => some b
  | _ => none

def list? (decode : Json → Option α) : Json → Option (List α)
  | .array items => items.mapM decode
  | _ => none

def option? (decode : Json → Option α) : Json → Option (Option α)
  | .null => some none
  | json => (decode json).map some

def pair? : Json → Option (String × String)
  | .array [.string a, .string b] => some (a, b)
  | _ => none

def valuesOf (name : String) (fields : List (Option String × Json)) : List Json :=
  (fields.filter fun field => field.1 == some name).map Prod.snd

def shaped? (shape : Shape) : Json → Option (List (Option Json))
  | .object fields =>
    if fields.all fun field => field.1.isSome then
      shape.mapM fun (name, absence) =>
        match valuesOf name fields, absence with
        | [value], _ => some (some value)
        | [], .null => some (some .null)
        | [], .default => some none
        | _, _ => none
    else
      none
  | .array items => inOrder shape items
  | _ => none
where
  inOrder : Shape → List Json → Option (List (Option Json))
    | [], [] => some []
    | [], _ :: _ => none
    | _ :: shape, item :: items => (inOrder shape items).map (some item :: ·)
    | (_, absence) :: shape, [] =>
      if absence = .default then (inOrder shape []).map (none :: ·) else none

def named? (values : List (String × α)) : Json → Option α
  | .string name => values.lookup name
  | .object [(some name, .null)] => values.lookup name
  | _ => none

/--
The value of a field of an object, taken leniently: absent if the key is absent or the value is no
object.
-/
def field? (name : String) : Json → Option Json
  | .object fields => (valuesOf name fields).getLast?
  | _ => none

end BoxRegistry.Json
