import BoxRegistry.Request

namespace BoxRegistry.Host

abbrev Ceiling := Option Nat

def Ceiling.lower (c : Ceiling) (n : Nat) : Nat :=
  match c with
  | none => n
  | some limit => min n limit

def addressBytes (memoryMib : Nat) : Nat :=
  memoryMib * Resources.mebibyte

def firstProcessors : Nat → List Bool → List Bool × Nat
  | _, [] => ([], 0)
  | 0, mask => (mask.map fun _ => false, 0)
  | n + 1, true :: mask =>
    let (pinned, taken) := firstProcessors n mask
    (true :: pinned, taken + 1)
  | n + 1, false :: mask =>
    let (pinned, taken) := firstProcessors (n + 1) mask
    (false :: pinned, taken)

def pin (cpus : Nat) (allowed : List Bool) : List Bool :=
  let (pinned, taken) := firstProcessors cpus allowed
  if taken < cpus then allowed else pinned

structure Bounds where
  soft : Ceiling := none
  hard : Ceiling := none
  processors : List Bool
deriving DecidableEq, Repr, Inhabited

namespace Bounds

def ofBox (host : Bounds) (cpus memoryMib : Nat) : Bounds :=
  let bytes := host.hard.lower (addressBytes memoryMib)
  { soft := some bytes, hard := some bytes, processors := pin cpus host.processors }

def width (b : Bounds) : Nat :=
  b.processors.countP id

end Bounds

end BoxRegistry.Host
