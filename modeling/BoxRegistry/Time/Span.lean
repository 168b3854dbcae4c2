namespace BoxRegistry.Time

structure Span where
  nanos : Nat
deriving DecidableEq, Repr, Inhabited

namespace Span

def ofMillis (n : Nat) : Span := ⟨n * 1000000⟩

def ofSeconds (n : Nat) : Span := ⟨n * 1000000000⟩

def ticks (s : Span) : Nat := (s.nanos + 999999) / 1000000

def fractionDigits (width part : Nat) : String :=
  let digits := toString part
  let padded := "".pushn '0' (width - digits.length) ++ digits
  String.ofList (padded.toList.reverse.dropWhile (· = '0')).reverse

def inUnit (whole part width : Nat) (symbol : String) : String :=
  let fraction := fractionDigits width part
  toString whole ++ (if fraction.isEmpty then "" else "." ++ fraction) ++ symbol

/--
The text of a span: in the largest of the units s, ms, µs and ns that it fills once, with as many
fraction digits as it takes to be exact.
-/
def render (s : Span) : String :=
  if s.nanos ≥ 1000000000 then inUnit (s.nanos / 1000000000) (s.nanos % 1000000000) 9 "s"
  else if s.nanos ≥ 1000000 then inUnit (s.nanos / 1000000) (s.nanos % 1000000) 6 "ms"
  else if s.nanos ≥ 1000 then inUnit (s.nanos / 1000) (s.nanos % 1000) 3 "µs"
  else inUnit s.nanos 0 0 "ns"

@[simp]
theorem ticks_ofMillis (n : Nat) : (ofMillis n).ticks = n := by
  simp only [ofMillis, ticks]
  omega

end Span

end BoxRegistry.Time
