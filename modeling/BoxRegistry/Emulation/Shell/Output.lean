import BoxRegistry.Emulation.Shell.Lexer

namespace BoxRegistry.Emulation.Shell

def bytes (text : String) : List UInt8 :=
  text.toUTF8.toList

def octal (digits : List Char) : Nat :=
  digits.foldl (fun n c => n * 8 + (c.toNat - '0'.toNat)) 0

def octalDigits (limit : Nat) (cs : List Char) : List Char :=
  (cs.take limit).takeWhile fun c => '0' ≤ c && c ≤ '7'

def escape? : Char → Option UInt8
  | 'a' => some 7
  | 'b' => some 8
  | 'e' => some 27
  | 'f' => some 12
  | 'n' => some 10
  | 'r' => some 13
  | 't' => some 9
  | 'v' => some 11
  | '\\' => some 92
  | _ => none

/--
The bytes of a text with escapes. Octal numbers begin with a zero if `zeroFirst`. The second component
tells whether an escape ended the output.
-/
def unescape (zeroFirst : Bool) : Nat → List Char → List UInt8 × Bool
  | 0, _ => ([], false)
  | fuel + 1, cs =>
    match cs with
    | [] => ([], false)
    | '\\' :: 'c' :: rest =>
      if zeroFirst then ([], true)
      else
        let (more, ended) := unescape zeroFirst fuel rest
        (bytes "\\c" ++ more, ended)
    | '\\' :: c :: rest =>
      match escape? c with
      | some b =>
        let (more, ended) := unescape zeroFirst fuel rest
        (b :: more, ended)
      | none =>
        let digits :=
          if zeroFirst then (if c = '0' then octalDigits 3 rest else [])
          else octalDigits 3 (c :: rest)
        if (zeroFirst ∧ c = '0') ∨ (!zeroFirst ∧ !digits.isEmpty) then
          let after := if zeroFirst then rest.drop digits.length else (c :: rest).drop digits.length
          let (more, ended) := unescape zeroFirst fuel after
          (UInt8.ofNat (octal digits) :: more, ended)
        else
          let (more, ended) := unescape zeroFirst fuel rest
          (bytes ("\\" ++ c.toString) ++ more, ended)
    | c :: rest =>
      let (more, ended) := unescape zeroFirst fuel rest
      (bytes c.toString ++ more, ended)

/--
The bytes that an echo writes. The arguments are set apart by blanks, and a line end follows unless the
first argument asks for none. Escapes count if `escapes`.
-/
def echo (escapes : Bool) (args : List String) : List UInt8 :=
  let (args, ended) := if args.head? = some "-n" then (args.tail, true) else (args, false)
  let text := " ".intercalate args
  let (out, cut) :=
    if escapes then unescape true (text.length + 1) text.toList else (bytes text, false)
  out ++ (if ended || cut then [] else [10])

def integerText (text : String) : String :=
  match text.toList with
  | '-' :: digits => (number? (String.ofList digits)).elim "0" fun n => if n = 0 then "0" else "-" ++ toString n
  | '\'' :: c :: _ | '"' :: c :: _ => toString c.toNat
  | _ => toString ((number? text).getD 0)

def formatPass : Nat → List Char → List String → List UInt8 × List String
  | 0, _, args => ([], args)
  | fuel + 1, cs, args =>
    let next (out : List UInt8) (rest : List Char) (args : List String) : List UInt8 × List String :=
      let (more, args) := formatPass fuel rest args
      (out ++ more, args)
    match cs with
    | [] => ([], args)
    | '%' :: '%' :: rest => next [37] rest args
    | '%' :: 's' :: rest => next (bytes (args.head?.getD "")) rest args.tail
    | '%' :: 'c' :: rest =>
      next (bytes (String.ofList ((args.head?.getD "").toList.take 1))) rest args.tail
    | '%' :: 'b' :: rest =>
      let text := args.head?.getD ""
      next (unescape true (text.length + 1) text.toList).1 rest args.tail
    | '%' :: 'd' :: rest | '%' :: 'i' :: rest | '%' :: 'u' :: rest =>
      next (bytes (integerText (args.head?.getD "0"))) rest args.tail
    | '\\' :: '"' :: rest => next [34] rest args
    | '\\' :: c :: rest =>
      match escape? c with
      | some b => next [b] rest args
      | none =>
        let digits := octalDigits 3 (c :: rest)
        if digits.isEmpty then next (bytes ("\\" ++ c.toString)) rest args
        else next [UInt8.ofNat (octal digits)] ((c :: rest).drop digits.length) args
    | c :: rest => next (bytes c.toString) rest args

/--
The bytes that a formatted print writes. The format is used again for as long as it uses up arguments
and any are left.
-/
def printf (format : String) : Nat → List String → List UInt8
  | 0, _ => []
  | fuel + 1, args =>
    let (out, rest) := formatPass (format.length + 1) format.toList args
    if rest.isEmpty ∨ rest.length = args.length then out else out ++ printf format fuel rest

end BoxRegistry.Emulation.Shell
