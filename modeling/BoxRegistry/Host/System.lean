import BoxRegistry.Host.Bounds
import BoxRegistry.Host.Signal
import BoxRegistry.Lifecycle.Record

/-!
This module contains what an operating system has to offer so that boxes can be run on it as processes. How it does so
is not said here, and nothing that is proved about boxes depends on it.
-/

namespace BoxRegistry.Host

abbrev Environment := List (String × String)

def Environment.set (env : Environment) (name value : String) : Environment :=
  env.filter (fun entry => entry.1 ≠ name) ++ [(name, value)]

class System (κ : Type) where
  -- What the programs that it starts inherit.
  env : κ → Environment
  bounds : κ → Bounds
  -- Start a program in a group of its own, or tell why that is not possible.
  start : κ → (image : String) → (args : List String) → Environment → Bounds → Except String (κ × Pid)
  -- Send a signal to a process, or to the group of a negative number.
  send : κ → Int → Signal → κ
  isReachable : κ → Int → Bool
  -- How a process has ended, and when.
  ended? : κ → Pid → Option (ProcessEnd × Nat)
  clock : κ → Nat
  -- The next time at which something happens by itself.
  due? : κ → Option Nat
  moveTo : κ → Nat → κ

end BoxRegistry.Host
