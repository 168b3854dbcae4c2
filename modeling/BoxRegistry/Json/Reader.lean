import BoxRegistry.Json.Basic

/-!
This module contains the strict reader of the JSON text format: only the four white space characters
of the format, no comments, no leading zeros, no control characters inside strings, and nothing
but white space after the value. Nesting is not limited.
-/

namespace BoxRegistry.Json.Reader

def isSpace (c : Char) : Bool :=
  c = ' ' || c = '\t' || c = '\n' || c = '\r'

def skip (cs : List Char) : List Char :=
  cs.dropWhile isSpace

inductive Piece where
  | char (c : Char)
  | unit (n : Nat)
deriving DecidableEq, Repr

def hexDigit? (c : Char) : Option Nat :=
  if '0' ≤ c ∧ c ≤ '9' then some (c.toNat - '0'.toNat)
  else if 'a' ≤ c ∧ c ≤ 'f' then some (c.toNat - 'a'.toNat + 10)
  else if 'A' ≤ c ∧ c ≤ 'F' then some (c.toNat - 'A'.toNat + 10)
  else none

def hexUnit? (a b c d : Char) : Option Nat := do
  let a ← hexDigit? a
  let b ← hexDigit? b
  let c ← hexDigit? c
  let d ← hexDigit? d
  return ((a * 16 + b) * 16 + c) * 16 + d

def shortEscape? : Char → Option Char
  | '"' => some '"'
  | '\\' => some '\\'
  | '/' => some '/'
  | 'b' => some '\x08'
  | 'f' => some '\x0c'
  | 'n' => some '\n'
  | 'r' => some '\r'
  | 't' => some '\t'
  | _ => none

def pieces (cs : List Char) : Option (List Piece × List Char) :=
  go [] cs
where
  go (acc : List Piece) : List Char → Option (List Piece × List Char)
    | [] => none
    | '"' :: rest => some (acc.reverse, rest)
    | '\\' :: 'u' :: a :: b :: c :: d :: rest =>
      match hexUnit? a b c d with
      | some n => go (.unit n :: acc) rest
      | none => none
    | '\\' :: e :: rest =>
      match shortEscape? e with
      | some c => go (.char c :: acc) rest
      | none => none
    | c :: rest => if c.toNat < 0x20 then none else go (.char c :: acc) rest

/--
The characters of a string. Two units that form a surrogate pair are one character; a half that
stands alone is none.
-/
def characters (ps : List Piece) : Option (List Char) :=
  go [] ps
where
  go (acc : List Char) : List Piece → Option (List Char)
    | [] => some acc.reverse
    | .char c :: rest => go (c :: acc) rest
    | .unit h :: .unit l :: rest =>
      if 0xD800 ≤ h ∧ h < 0xDC00 ∧ 0xDC00 ≤ l ∧ l < 0xE000 then
        go (Char.ofNat (0x10000 + (h - 0xD800) * 0x400 + (l - 0xDC00)) :: acc) rest
      else if 0xD800 ≤ h ∧ h < 0xE000 then
        none
      else
        go (Char.ofNat h :: acc) (.unit l :: rest)
    | .unit h :: rest =>
      if 0xD800 ≤ h ∧ h < 0xE000 then none else go (Char.ofNat h :: acc) rest

def string (cs : List Char) : Option (Option String × List Char) := do
  let (ps, rest) ← pieces cs
  return ((characters ps).map String.ofList, rest)

def digitValue (c : Char) : Nat :=
  c.toNat - '0'.toNat

def ofDigits (ds : List Nat) : Nat :=
  ds.foldl (fun n d => n * 10 + d) 0

def digits (cs : List Char) : List Nat × List Char :=
  let (front, rest) := cs.span Char.isDigit
  (front.map digitValue, rest)

def fraction : List Char → Option (List Nat × List Char)
  | '.' :: rest =>
    match digits rest with
    | ([], _) => none
    | (ds, rest) => some (ds, rest)
  | rest => some ([], rest)

def exponentDigits (negative : Bool) (cs : List Char) : Option (Option Int × List Char) :=
  match digits cs with
  | ([], _) => none
  | (ds, rest) =>
    let n : Int := ofDigits ds
    some (some (if negative then -n else n), rest)

def exponent : List Char → Option (Option Int × List Char)
  | 'e' :: '+' :: rest | 'E' :: '+' :: rest => exponentDigits false rest
  | 'e' :: '-' :: rest | 'E' :: '-' :: rest => exponentDigits true rest
  | 'e' :: rest | 'E' :: rest => exponentDigits false rest
  | rest => some (none, rest)

/--
A number whose sign was read. The whole part has no superfluous zero in front.
-/
def unsigned (negative : Bool) (cs : List Char) : Option (Number × List Char) :=
  match digits cs with
  | ([], _) => none
  | (0 :: _ :: _, _) => none
  | (ds, rest) => do
    let (fraction, rest) ← fraction rest
    let (exponent, rest) ← exponent rest
    return ({ negative, whole := ofDigits ds, fraction, exponent }, rest)

def number : List Char → Option (Number × List Char)
  | '-' :: rest => unsigned true rest
  | rest => unsigned false rest

mutual

/--
A value, which may be preceded by white space, and what follows it. Each level of nesting uses up
fuel.
-/
def value : Nat → List Char → Option (Json × List Char)
  | 0, _ => none
  | fuel + 1, cs =>
    match skip cs with
    | 'n' :: 'u' :: 'l' :: 'l' :: rest => some (.null, rest)
    | 't' :: 'r' :: 'u' :: 'e' :: rest => some (.bool true, rest)
    | 'f' :: 'a' :: 'l' :: 's' :: 'e' :: rest => some (.bool false, rest)
    | '"' :: rest => do
      let (text, rest) ← string rest
      return (text.elim .unpaired .string, rest)
    | '[' :: rest =>
      match skip rest with
      | ']' :: rest => some (.array [], rest)
      | rest => items fuel [] rest
    | '{' :: rest =>
      match skip rest with
      | '}' :: rest => some (.object [], rest)
      | rest => fields fuel [] rest
    | rest => do
      let (n, rest) ← number rest
      return (.number n, rest)

def items : Nat → List Json → List Char → Option (Json × List Char)
  | 0, _, _ => none
  | fuel + 1, acc, cs => do
    let (item, rest) ← value fuel cs
    match skip rest with
    | ',' :: rest => items fuel (item :: acc) rest
    | ']' :: rest => return (.array (item :: acc).reverse, rest)
    | _ => none

def fields : Nat → List (Option String × Json) → List Char → Option (Json × List Char)
  | 0, _, _ => none
  | fuel + 1, acc, cs =>
    match skip cs with
    | '"' :: rest => do
      let (key, rest) ← string rest
      match skip rest with
      | ':' :: rest =>
        let (item, rest) ← value fuel rest
        match skip rest with
        | ',' :: rest => fields fuel ((key, item) :: acc) rest
        | '}' :: rest => return (.object ((key, item) :: acc).reverse, rest)
        | _ => none
      | _ => none
    | _ => none

end

end Reader

/--
Read a text that holds one value and nothing else. Two units of fuel for each character are enough:
of any two nested calls one takes a character.
-/
def parse? (text : String) : Option Json :=
  let cs := text.toList
  match Reader.value (2 * cs.length + 2) cs with
  | some (v, rest) => if Reader.skip rest = [] then some v else none
  | none => none

end BoxRegistry.Json
