import BoxRegistry.Json.Basic

namespace BoxRegistry.Json.Printer

def hexDigit (n : Nat) : Char :=
  if n < 10 then Char.ofNat ('0'.toNat + n) else Char.ofNat ('a'.toNat + (n - 10))

def escaped (c : Char) : List Char :=
  match c with
  | '"' => ['\\', '"']
  | '\\' => ['\\', '\\']
  | '\n' => ['\\', 'n']
  | '\r' => ['\\', 'r']
  | '\t' => ['\\', 't']
  | '\x08' => ['\\', 'b']
  | '\x0c' => ['\\', 'f']
  | c =>
    if c.toNat < 0x20 then
      ['\\', 'u', '0', '0', hexDigit (c.toNat / 16), hexDigit (c.toNat % 16)]
    else
      [c]

def string (text : String) : String :=
  "\"" ++ String.ofList (text.toList.flatMap escaped) ++ "\""

def number (n : Number) : String :=
  (if n.negative then "-" else "") ++ toString n.whole
    ++ (if n.fraction.isEmpty then "" else "." ++ String.join (n.fraction.map toString))
    ++ (match n.exponent with
        | none => ""
        | some e => "e" ++ toString e)

/--
The key of a field. One that stands for no text is written as the first half of a pair alone.
-/
def key : Option String → String
  | some text => string text
  | none => "\"\\ud800\""

mutual

def value : Json → String
  | .null => "null"
  | .bool true => "true"
  | .bool false => "false"
  | .number n => number n
  | .string text => string text
  | .unpaired => key none
  | .array xs => "[" ++ ",".intercalate (items xs) ++ "]"
  | .object fs => "\x7b" ++ ",".intercalate (fields fs) ++ "\x7d"

def items : List Json → List String
  | [] => []
  | x :: xs => value x :: items xs

def fields : List (Option String × Json) → List String
  | [] => []
  | (k, x) :: xs => (key k ++ ":" ++ value x) :: fields xs

end

end Printer

def compact (json : Json) : String :=
  Printer.value json

end BoxRegistry.Json
