namespace BoxRegistry

/--
The parts of a written number: `-12.50e+3` is negative, has the whole part `12`, the fraction
digits `5`, `0` and the exponent `3`.
-/
structure Json.Number where
  negative : Bool
  whole : Nat
  fraction : List Nat
  exponent : Option Int
deriving DecidableEq, Repr, Inhabited

/--
A JSON value. A string whose escapes name one half of a surrogate pair alone is well formed, but
stands for no text: it is `unpaired`, and as the key of a field it is `none`.
-/
inductive Json where
  | null
  | bool (value : Bool)
  | number (value : Json.Number)
  | string (text : String)
  | unpaired
  | array (items : List Json)
  | object (fields : List (Option String × Json))
deriving Repr, Inhabited

namespace Json

def Number.ofInt (i : Int) : Number :=
  { negative := i < 0, whole := i.natAbs, fraction := [], exponent := none }

/--
The integer that a number stands for. A number with a fraction or an exponent is no integer,
whatever its value, and neither is `-0`.
-/
def Number.int? (n : Number) : Option Int :=
  if n.fraction.isEmpty && n.exponent.isNone then
    if n.negative then
      if n.whole = 0 then none else some (-(n.whole : Int))
    else
      some n.whole
  else
    none

theorem Number.int?_ofInt (i : Int) : (Number.ofInt i).int? = some i := by
  unfold Number.ofInt Number.int?
  by_cases h : i < 0
  · have : i.natAbs ≠ 0 := by omega
    simp only [List.isEmpty_nil, Option.isNone_none, Bool.and_self, if_true, h, decide_true, this,
      if_false, Option.some.injEq]
    omega
  · simp only [List.isEmpty_nil, Option.isNone_none, Bool.and_self, if_true, h, decide_false,
      Bool.false_eq_true, if_false, Option.some.injEq]
    omega

def ofInt (i : Int) : Json :=
  .number (Number.ofInt i)

def ofNat (n : Nat) : Json :=
  ofInt n

def ofOption (encode : α → Json) : Option α → Json
  | none => .null
  | some a => encode a

def record (fields : List (String × Json)) : Json :=
  .object (fields.map fun field => (some field.1, field.2))

def ofStrings (texts : List String) : Json :=
  .array (texts.map .string)

end Json

end BoxRegistry
