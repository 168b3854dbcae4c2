namespace BoxRegistry.Text.Lines

def split (bytes : List UInt8) : List (List UInt8 × Bool) :=
  go [] bytes
where
  go (acc : List UInt8) : List UInt8 → List (List UInt8 × Bool)
    | [] => if acc.isEmpty then [] else [(acc.reverse, false)]
    | b :: rest => if b = 10 then (acc.reverse, true) :: go [] rest else go (b :: acc) rest

def withoutReturn (line : List UInt8) (ended : Bool) : List UInt8 :=
  if ended && line.getLast? = some 13 then line.dropLast else line

def text? (line : List UInt8 × Bool) : Option String :=
  String.fromUTF8? ⟨(withoutReturn line.1 line.2).toArray⟩

/--
What was read of a stream: the lines up to the first one that is not valid, and whether there was such
a line.
-/
structure Reading where
  lines : List String
  broken : Bool
deriving DecidableEq, Repr

def read (bytes : List UInt8) : Reading :=
  go (split bytes)
where
  go : List (List UInt8 × Bool) → Reading
    | [] => ⟨[], false⟩
    | line :: rest =>
      match text? line with
      | none => ⟨[], true⟩
      | some text => let r := go rest; { r with lines := text :: r.lines }

end BoxRegistry.Text.Lines
