/-!
This module contains the removal of color sequences from the output of a box. A sequence begins with an
escape and a bracket and goes on to the letter `m`; an escape before any other character takes that
character with it.
-/

namespace BoxRegistry.Text.Colour

inductive Mode where
  | text
  | afterEscape
  | sequence
deriving DecidableEq, Repr

def escape : Char := '\x1b'

def stripFrom : Mode → List Char → List Char
  | _, [] => []
  | .text, c :: cs => if c = escape then stripFrom .afterEscape cs else c :: stripFrom .text cs
  | .afterEscape, c :: cs => stripFrom (if c = '[' then .sequence else .text) cs
  | .sequence, c :: cs => stripFrom (if c = 'm' then .text else .sequence) cs

def strip (text : String) : String :=
  String.ofList (stripFrom .text text.toList)

end BoxRegistry.Text.Colour
