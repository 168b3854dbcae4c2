namespace BoxRegistry

/--
An id by its text. Ids out of records are taken as they are; `BoxId.parse?` takes only texts that have
the form of an id.
-/
structure BoxId where
  text : String
deriving DecidableEq, Repr, Inhabited, Hashable

namespace BoxId

def alphabet : List Char :=
  ['0', '1', '2', '3', '4', '5', '6', '7', '8', '9', 'A', 'B', 'C', 'D', 'E', 'F', 'G', 'H', 'J',
   'K', 'M', 'N', 'P', 'Q', 'R', 'S', 'T', 'V', 'W', 'X', 'Y', 'Z']

def isDigit (c : Char) : Bool :=
  alphabet.contains c.toUpper

def fullLength : Nat := 26

def shortLength : Nat := 8

/--
Whether a text has the form of an id. A digit takes one byte, so the length is that in bytes.
-/
def isValid (text : String) : Bool :=
  text.toList.length = fullLength && text.toList.all isDigit

def parse? (text : String) : Option BoxId :=
  if isValid text then some ⟨text⟩ else none

def takeBytes? : Nat → List Char → Option (List Char)
  | 0, _ => some []
  | _ + 1, [] => none
  | n + 1, c :: cs =>
    if c.utf8Size ≤ n + 1 then (takeBytes? (n + 1 - c.utf8Size) cs).map (c :: ·) else none
termination_by n => n
decreasing_by
  have := c.utf8Size_pos
  omega

def short? (id : BoxId) : Option String :=
  (takeBytes? shortLength id.text.toList).map String.ofList

def label? (id : BoxId) : Option String :=
  id.short?.map fun short => "BoxID(" ++ short ++ ")"

def digits : Nat → Nat → List Char
  | 0, _ => []
  | count + 1, n => digits count (n / 32) ++ [alphabet.getD (n % 32) '0']

def ofNumber (n : Nat) : BoxId :=
  ⟨String.ofList (digits fullLength n)⟩

end BoxId

structure IdSource where
  last : Nat := 0
deriving DecidableEq, Repr, Inhabited

namespace IdSource

def label : String := "BoxIdGenerator \x7b .. \x7d"

def randomBits : Nat := 80

/--
Draw a number at a reading of the clock in milliseconds. A clock that has moved on gives a new number
from its reading and from chance; otherwise the last number is counted up, until its random part is
used up.
-/
def draw? (source : IdSource) (clock chance : Nat) : Option (Nat × IdSource) :=
  let clock := clock % Nat.pow 2 48
  if source.last / Nat.pow 2 randomBits < clock then
    let n := clock * Nat.pow 2 randomBits + chance % Nat.pow 2 randomBits
    some (n, ⟨n⟩)
  else if source.last % Nat.pow 2 randomBits + 1 < Nat.pow 2 randomBits then
    some (source.last + 1, ⟨source.last + 1⟩)
  else
    none

end IdSource

end BoxRegistry
