import BoxRegistry.Emulation.Shell.Syntax

/-!
This module contains the division of shell scripts into tokens. All functions consume characters from
the front of a list; the fuel of a function is the number of characters that it may consume.
-/

namespace BoxRegistry.Emulation.Shell

def isNameChar (c : Char) : Bool :=
  c.isAlphanum || c = '_'

def isName (text : String) : Bool :=
  match text.toList with
  | c :: cs => (c.isAlpha || c = '_') && cs.all isNameChar
  | [] => false

def number? (text : String) : Option Nat :=
  if text.isEmpty || !text.toList.all Char.isDigit then none else text.toNat?

def isSpecial (c : Char) : Bool :=
  c.isDigit || ['?', '$', '#', '!', '@', '*', '-'].contains c

def isMeta (c : Char) : Bool :=
  [' ', '\t', '\n', ';', '&', '|', '<', '>', '(', ')'].contains c

def scanParam (quoted : Bool) (cs : List Char) : Option (Part × List Char) :=
  match cs with
  | '\x7b' :: rest =>
    let inner := rest.takeWhile (· ≠ '\x7d')
    match rest.drop inner.length with
    | _ :: after =>
      let name := inner.takeWhile fun c => isNameChar c || isSpecial c && c ≠ '-'
      match inner.drop name.length with
      | [] => some (.param (String.ofList name) none quoted, after)
      | ':' :: '-' :: fallback | '-' :: fallback =>
        some (.param (String.ofList name) (some (String.ofList fallback)) quoted, after)
      | _ => none
    | [] => none
  | c :: rest =>
    if isSpecial c then some (.param c.toString none quoted, rest)
    else if c.isAlpha || c = '_' then
      let name := cs.takeWhile isNameChar
      some (.param (String.ofList name) none quoted, cs.drop name.length)
    else none
  | [] => none

def scanQuoted : Nat → List Char → Option (List Part × List Char)
  | 0, _ => none
  | fuel + 1, cs =>
    match cs with
    | [] => none
    | '"' :: rest => some ([], rest)
    | '\\' :: c :: rest =>
      let kept := if ['$', '"', '\\', Char.ofNat 96].contains c then c.toString
        else if c = '\n' then "" else "\\" ++ c.toString
      (scanQuoted fuel rest).map fun (parts, after) => (.text kept true :: parts, after)
    | '$' :: rest =>
      match scanParam true rest with
      | some (part, rest) =>
        (scanQuoted fuel rest).map fun (parts, after) => (part :: parts, after)
      | none => (scanQuoted fuel rest).map fun (parts, after) => (.text "$" true :: parts, after)
    | c :: rest =>
      (scanQuoted fuel rest).map fun (parts, after) => (.text c.toString true :: parts, after)

def scanWord : Nat → List Char → Option (Word × List Char)
  | 0, _ => none
  | fuel + 1, cs =>
    match cs with
    | [] => some ([], [])
    | '\\' :: '\n' :: rest => scanWord fuel rest
    | '\\' :: c :: rest =>
      (scanWord fuel rest).map fun (parts, after) => (.text c.toString true :: parts, after)
    | '\'' :: rest =>
      let inner := rest.takeWhile (· ≠ '\'')
      match rest.drop inner.length with
      | [] => none
      | _ :: rest =>
        (scanWord fuel rest).map fun (parts, after) =>
          (.text (String.ofList inner) true :: parts, after)
    | '"' :: rest => do
      let (quoted, rest) ← scanQuoted (rest.length + 1) rest
      let (parts, after) ← scanWord fuel rest
      return ((if quoted.isEmpty then [.text "" true] else quoted) ++ parts, after)
    | '$' :: rest =>
      match scanParam false rest with
      | some (part, rest) =>
        (scanWord fuel rest).map fun (parts, after) => (part :: parts, after)
      | none => (scanWord fuel rest).map fun (parts, after) => (.text "$" false :: parts, after)
    | c :: rest =>
      if isMeta c then some ([], cs)
      else (scanWord fuel rest).map fun (parts, after) => (.text c.toString false :: parts, after)

def joinTexts : Word → Word
  | .text a q :: rest =>
    match joinTexts rest with
    | .text b q' :: more =>
      if q = q' then .text (a ++ b) q :: more else .text a q :: .text b q' :: more
    | more => .text a q :: more
  | part :: rest => part :: joinTexts rest
  | [] => []

def operators : List String :=
  ["&&", "||", ";;", ";", "&", "|", "(", ")", "\n"]

def redirections : List String :=
  [">>", ">&", "<&", ">", "<"]

def leading? (texts : List String) (cs : List Char) : Option String :=
  texts.find? fun text => text.toList.isPrefixOf cs

def scanTokens : Nat → List Char → Option (List Token)
  | 0, _ => none
  | fuel + 1, cs =>
    match cs with
    | [] => some []
    | ' ' :: rest | '\t' :: rest => scanTokens fuel rest
    | '\\' :: '\n' :: rest => scanTokens fuel rest
    | '#' :: rest => scanTokens fuel (rest.dropWhile (· ≠ '\n'))
    | _ =>
      match leading? operators cs with
      | some op => (scanTokens fuel (cs.drop op.length)).map (.op op :: ·)
      | none =>
        let digits := cs.takeWhile Char.isDigit
        match leading? redirections (cs.drop digits.length) with
        | some mode =>
          let fallback := if mode.toList.head? = some '<' then 0 else 1
          let fd := (number? (String.ofList digits)).getD fallback
          (scanTokens fuel (cs.drop (digits.length + mode.length))).map (.redirect fd mode :: ·)
        | none => do
          let (word, rest) ← scanWord (cs.length + 1) cs
          let tokens ← scanTokens fuel rest
          return .word (joinTexts word) :: tokens

def tokens? (script : String) : Option (List Token) :=
  let cs := script.toList
  scanTokens (cs.length + 1) cs

end BoxRegistry.Emulation.Shell
