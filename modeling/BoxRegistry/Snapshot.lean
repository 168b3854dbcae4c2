import BoxRegistry.Lifecycle.Record
import BoxRegistry.Numeric.Binary
import BoxRegistry.Spec

namespace BoxRegistry

structure Usage where
  cpu : Numeric.Single
  memoryMib : Nat
deriving DecidableEq, Repr, Inhabited

namespace Usage

def zero : Usage := ⟨Numeric.Single.zero, 0⟩

end Usage

structure Snapshot where
  id : BoxId
  name : Option String
  status : Status
  image : String
  cpus : Nat
  memoryMib : Nat
  pid : Option Pid
  createdAt : Time.Moment
  startedAt : Option Time.Moment
  endedAt : Option Time.Moment
  ending : Option Ending
  lastUpdated : Time.Moment
  usage : Option Usage
deriving DecidableEq, Repr, Inhabited

namespace Snapshot

def of (spec : Spec) (record : Record) (usage : Option Usage) : Snapshot :=
  { id := spec.id, name := spec.name, status := record.status, image := spec.image,
    cpus := spec.cpus, memoryMib := spec.memoryMib, pid := record.pid,
    createdAt := spec.createdAt, startedAt := record.startedAt, endedAt := record.endedAt,
    ending := record.ending, lastUpdated := record.lastUpdated, usage }

def pidPlaceholder : String := "-"

def pidLabel (s : Snapshot) : String :=
  match s.pid with
  | some pid => toString pid
  | none => pidPlaceholder

end Snapshot

end BoxRegistry
