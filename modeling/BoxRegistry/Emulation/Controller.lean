import BoxRegistry.Emulation.Transcript
import BoxRegistry.Host.Controller

namespace BoxRegistry

open Host (System ProcessController)
open Emulation (Kernel)

namespace Emulation

instance : System Kernel where
  env := Kernel.env
  bounds := Kernel.bounds
  start k image args env bounds :=
    match Program.find k.files env image with
    | .error failure => .error failure.message
    | .ok _ => .ok ((k.add none none (.program image args env) {} [] bounds).run, k.nextPid)
  send k target signal := (k.send target signal).run
  isReachable := Kernel.isReachable
  ended? k pid := (k.process? pid).bind Process.ended
  clock := Kernel.clock
  due? := Kernel.due?
  moveTo := Kernel.moveTo

end Emulation

abbrev Host.Controller := ProcessController Kernel

namespace Host.Controller

def new : Host.Controller :=
  { kernel := .new }

def name : String :=
  ProcessController.name

end Host.Controller

end BoxRegistry
