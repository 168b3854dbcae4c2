import BoxRegistry.Json.Basic
import BoxRegistry.Numeric.Binary

/-!
This module contains the binary values of JSON numbers. A number becomes a double by taking its leading
digits as far as 64 bits hold them and scaling them by a power of ten, with a rounding at each of
the two steps.
-/

namespace BoxRegistry.Json.Number

open BoxRegistry.Numeric

def leading (significand : Nat) : List Nat → Nat × Nat
  | [] => (significand, 0)
  | d :: ds =>
    if significand * 10 + d < Nat.pow 2 64 then leading (significand * 10 + d) ds
    else (significand, ds.length + 1)

def wholeDigits (n : Nat) : List Nat :=
  (toString n).toList.map fun c => c.toNat - '0'.toNat

def significand (n : Number) : Nat × Int :=
  let (whole, dropped) := leading 0 (wholeDigits n.whole)
  let (value, taken) :=
    if dropped = 0 then
      let (value, left) := leading whole n.fraction
      (value, n.fraction.length - left)
    else
      match n.fraction with
      | [] => (whole, 0)
      | d :: ds =>
        let (value, left) := leading whole (d :: ds)
        (value, (d :: ds).length - left)
  (value, (dropped : Int) - taken + n.exponent.getD 0)

def tenPower (k : Nat) : Binary :=
  (BinaryFormat.double.round? (Nat.pow 10 k) 1).getD default

/--
A double scaled by a power of ten. One below the range is brought there by steps of 308.
-/
def scaleByTen? (fuel : Nat) (x : Binary) (power : Int) : Option Binary :=
  if x.mantissa = 0 then some x
  else if 308 < power then none
  else if 0 ≤ power then x.mul? .double (tenPower power.toNat)
  else if -308 ≤ power then x.div? .double (tenPower (-power).toNat)
  else
    match fuel with
    | 0 => none
    | fuel + 1 => do scaleByTen? fuel (← x.div? .double (tenPower 308)) (power + 308)

/--
The magnitude of a number as a double, unless it is too large for one. Three steps of 308 leave
nothing of a significand of 64 bits.
-/
def double? (n : Number) : Option Binary := do
  let (significand, power) := n.significand
  let x ← BinaryFormat.double.round? significand 1
  scaleByTen? 4 x power

/--
Whether a number can be held in memory at all: it is an integer of 64 bits or not too large for a
double.
-/
def representable (n : Number) : Bool :=
  n.double?.isSome

def single? (n : Number) : Option Single :=
  match n.int? with
  | some i =>
    if -Int.pow 2 63 ≤ i ∧ i < Int.pow 2 64 then some (Single.ofQuotient (i < 0) i.natAbs 1)
    else viaDouble
  | none => viaDouble
where
  viaDouble : Option Single := do
    let (num, den) := (← n.double?).quotient
    return Single.ofQuotient n.negative num den

def singleOfDouble? (n : Number) : Option Single :=
  single?.viaDouble n

end BoxRegistry.Json.Number
