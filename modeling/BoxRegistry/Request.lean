import BoxRegistry.BoxId
import BoxRegistry.Fault
import BoxRegistry.Text.Blank

namespace BoxRegistry

structure Resources where
  cpus : Nat
  memoryMib : Nat
deriving DecidableEq, Repr, Inhabited

namespace Resources

def default : Resources := ⟨1, 512⟩

def mebibyte : Nat := 1024 * 1024

end Resources

structure Request where
  image : String
  name : Option String := none
  cpus : Option Nat := none
  memoryMib : Option Nat := none
  args : List String := []
  env : List (String × String) := []
deriving DecidableEq, Repr, Inhabited

namespace Request

def withEnv (request : Request) (key value : String) : Request :=
  { request with env := request.env ++ [(key, value)] }

/--
Check the name of a box. Boxes are looked up by id first, so a name in the form of an id would be out
of reach.
-/
def checkName : Option String → Except Fault Unit
  | none => .ok ()
  | some name =>
    if Text.isBlank name then .error (.invalidSpec "name must not be empty")
    else if BoxId.isValid name then
      .error (.invalidSpec ("name '" ++ name ++ "' has the form of a box id"))
    else .ok ()

def resolve (request : Request) : Except Fault Resources := do
  if Text.isBlank request.image then
    throw (.invalidSpec "image must not be empty")
  checkName request.name
  let cpus := request.cpus.getD Resources.default.cpus
  if cpus = 0 then
    throw (.invalidSpec "cpus must be positive")
  let memoryMib := request.memoryMib.getD Resources.default.memoryMib
  if memoryMib = 0 then
    throw (.invalidSpec "memory_mib must be positive")
  return { cpus, memoryMib }

end Request

end BoxRegistry
