namespace BoxRegistry.Numeric

structure BinaryFormat where
  precision : Nat
  minExponent : Int
  maxExponent : Int
deriving DecidableEq, Repr

namespace BinaryFormat

def single : BinaryFormat := ⟨24, -149, 104⟩

def double : BinaryFormat := ⟨53, -1074, 971⟩

end BinaryFormat

structure Binary where
  mantissa : Nat
  exponent : Int
deriving DecidableEq, Repr, Inhabited

def divRound (num den : Nat) : Nat :=
  let q := num / den
  let r := num % den
  if 2 * r < den then q
  else if 2 * r > den then q + 1
  else if q % 2 = 0 then q else q + 1

def scaled (num den : Nat) (exponent : Int) : Nat × Nat :=
  if 0 ≤ exponent then (num * Nat.pow 2 exponent.toNat, den) else (num, den * Nat.pow 2 (-exponent).toNat)

def quotientLog (num den : Nat) : Int :=
  let guess : Int := (num.log2 : Int) - den.log2
  let (n, d) := scaled num den (-guess)
  if d ≤ n then guess else guess - 1

namespace BinaryFormat

def round? (f : BinaryFormat) (num den : Nat) : Option Binary :=
  if num = 0 then
    some ⟨0, f.minExponent⟩
  else
    let exponent := max f.minExponent (quotientLog num den - f.precision + 1)
    let (n, d) := scaled num den (-exponent)
    let mantissa := divRound n d
    let rounded : Binary :=
      if mantissa = Nat.pow 2 f.precision then ⟨Nat.pow 2 (f.precision - 1), exponent + 1⟩
      else ⟨mantissa, exponent⟩
    if rounded.exponent ≤ f.maxExponent then some rounded else none

end BinaryFormat

namespace Binary

def quotient (x : Binary) : Nat × Nat :=
  scaled x.mantissa 1 x.exponent

def mul? (f : BinaryFormat) (x y : Binary) : Option Binary :=
  let (a, b) := x.quotient
  let (c, d) := y.quotient
  f.round? (a * c) (b * d)

def div? (f : BinaryFormat) (x y : Binary) : Option Binary :=
  let (a, b) := x.quotient
  let (c, d) := y.quotient
  f.round? (a * d) (b * c)

end Binary

structure Single where
  bits : UInt32
deriving DecidableEq, Repr, Inhabited

namespace Single

/--
The number nearest to a quotient, with a sign. One that is too large is infinite.
-/
def ofQuotient (negative : Bool) (num den : Nat) : Single :=
  let magnitude :=
    match BinaryFormat.single.round? num den with
    | none => 255 * Nat.pow 2 23
    | some ⟨m, e⟩ => if m < Nat.pow 2 23 then m else (e + 150).toNat * Nat.pow 2 23 + (m - Nat.pow 2 23)
  ⟨UInt32.ofNat (magnitude + if negative then Nat.pow 2 31 else 0)⟩

def zero : Single := ⟨0⟩

end Single

end BoxRegistry.Numeric
