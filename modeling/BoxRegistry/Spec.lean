import BoxRegistry.Request
import BoxRegistry.Time.Moment

namespace BoxRegistry

structure LaunchOrder where
  boxId : BoxId
  image : String
  cpus : Nat
  memoryMib : Nat
  args : List String
  env : List (String × String)
deriving DecidableEq, Repr, Inhabited

structure Spec where
  id : BoxId
  name : Option String
  image : String
  cpus : Nat
  memoryMib : Nat
  args : List String
  env : List (String × String)
  createdAt : Time.Moment
deriving DecidableEq, Repr, Inhabited

namespace Spec

def freeze (id : BoxId) (request : Request) (granted : Resources) (now : Time.Moment) : Spec :=
  { id, name := request.name, image := request.image, cpus := granted.cpus,
    memoryMib := granted.memoryMib, args := request.args, env := request.env, createdAt := now }

def ofRequest (id : BoxId) (request : Request) (now : Time.Moment) : Except Fault Spec := do
  return freeze id request (← request.resolve) now

def answersTo (spec : Spec) (key : String) : Bool :=
  spec.id.text = key || spec.name = some key

def launchOrder (spec : Spec) : LaunchOrder :=
  { boxId := spec.id, image := spec.image, cpus := spec.cpus, memoryMib := spec.memoryMib,
    args := spec.args, env := spec.env }

end Spec

end BoxRegistry
