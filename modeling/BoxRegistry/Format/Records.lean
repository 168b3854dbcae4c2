import BoxRegistry.Format.Ending
import BoxRegistry.Format.Scalars

namespace BoxRegistry

open BoxRegistry.Json (shaped?)

def envToJson (env : List (String × String)) : Json :=
  .array (env.map fun entry => .array [.string entry.1, .string entry.2])

def envOfJson? (json : Json) : Option (List (String × String)) :=
  json.list? Json.pair?

def textsOfJson? (json : Json) : Option (List String) :=
  json.list? Json.string?

namespace Request

def shape : Json.Shape :=
  [("image", .refused), ("name", .default), ("cpus", .null), ("memory_mib", .null),
   ("args", .default), ("env", .default)]

def toJson (r : Request) : Json :=
  .record [("image", .string r.image), ("name", .ofOption .string r.name),
    ("cpus", .ofOption .ofNat r.cpus), ("memory_mib", .ofOption .ofNat r.memoryMib),
    ("args", .ofStrings r.args), ("env", envToJson r.env)]

def ofJson? (json : Json) : Option Request := do
  match ← shaped? shape json with
  | [some image, name, some cpus, some memory, args, env] =>
    return {
      image := ← image.string?
      name := ← (name.getD .null).option? Json.string?
      cpus := ← cpus.option? (Json.unsigned? 8)
      memoryMib := ← memory.option? (Json.unsigned? 32)
      args := ← textsOfJson? (args.getD (.array []))
      env := ← envOfJson? (env.getD (.array [])) }
  | _ => none

end Request

namespace LaunchOrder

def shape : Json.Shape :=
  ["box_id", "image", "cpus", "memory_mib", "args", "env"].map fun name => (name, .refused)

def toJson (o : LaunchOrder) : Json :=
  .record [("box_id", o.boxId.toJson), ("image", .string o.image), ("cpus", .ofNat o.cpus),
    ("memory_mib", .ofNat o.memoryMib), ("args", .ofStrings o.args), ("env", envToJson o.env)]

def ofJson? (json : Json) : Option LaunchOrder := do
  match ← shaped? shape json with
  | [some id, some image, some cpus, some memory, some args, some env] =>
    return {
      boxId := ← BoxId.ofJson? id
      image := ← image.string?
      cpus := ← cpus.unsigned? 8
      memoryMib := ← memory.unsigned? 32
      args := ← textsOfJson? args
      env := ← envOfJson? env }
  | _ => none

end LaunchOrder

namespace Spec

def shape : Json.Shape :=
  [("id", .refused), ("name", .null), ("image", .refused), ("cpus", .refused),
   ("memory_mib", .refused), ("args", .refused), ("env", .refused), ("created_at", .refused)]

def toJson (s : Spec) : Json :=
  .record [("id", s.id.toJson), ("name", .ofOption .string s.name), ("image", .string s.image),
    ("cpus", .ofNat s.cpus), ("memory_mib", .ofNat s.memoryMib), ("args", .ofStrings s.args),
    ("env", envToJson s.env), ("created_at", s.createdAt.toJson)]

def ofJson? (json : Json) : Option Spec := do
  match ← shaped? shape json with
  | [some id, some name, some image, some cpus, some memory, some args, some env, some created] =>
    return {
      id := ← BoxId.ofJson? id
      name := ← name.option? Json.string?
      image := ← image.string?
      cpus := ← cpus.unsigned? 8
      memoryMib := ← memory.unsigned? 32
      args := ← textsOfJson? args
      env := ← envOfJson? env
      createdAt := ← Time.Moment.ofJson? created }
  | _ => none

end Spec

namespace Record

def shape : Json.Shape :=
  [("status", .refused), ("pid", .null), ("started_at", .null), ("ended_at", .null),
   ("exit_reason", .null), ("last_updated", .refused)]

def toJson (r : Record) : Json :=
  .record [("status", r.status.toJson), ("pid", .ofOption .ofNat r.pid),
    ("started_at", .ofOption Time.Moment.toJson r.startedAt),
    ("ended_at", .ofOption Time.Moment.toJson r.endedAt),
    ("exit_reason", .ofOption Ending.toJson r.ending), ("last_updated", r.lastUpdated.toJson)]

def ofJson? (json : Json) : Option Record := do
  match ← shaped? shape json with
  | [some status, some pid, some started, some ended, some ending, some updated] =>
    return {
      status := ← Status.ofJson? status
      pid := ← pid.option? (Json.unsigned? 32)
      startedAt := ← started.option? Time.Moment.ofJson?
      endedAt := ← ended.option? Time.Moment.ofJson?
      ending := ← ending.option? (Ending.ofJsonBelow? 1)
      lastUpdated := ← Time.Moment.ofJson? updated }
  | _ => none

end Record

namespace Snapshot

def shape : Json.Shape :=
  [("id", .refused), ("name", .null), ("status", .refused), ("image", .refused),
   ("cpus", .refused), ("memory_mib", .refused), ("pid", .null), ("created_at", .refused),
   ("started_at", .null), ("ended_at", .null), ("exit_reason", .null), ("last_updated", .refused),
   ("usage", .null)]

def ofJson? (json : Json) : Option Snapshot := do
  match ← shaped? shape json with
  | [some id, some name, some status, some image, some cpus, some memory, some pid, some created,
      some started, some ended, some ending, some updated, some usage] =>
    return {
      id := ← BoxId.ofJson? id
      name := ← name.option? Json.string?
      status := ← Status.ofJson? status
      image := ← image.string?
      cpus := ← cpus.unsigned? 8
      memoryMib := ← memory.unsigned? 32
      pid := ← pid.option? (Json.unsigned? 32)
      createdAt := ← Time.Moment.ofJson? created
      startedAt := ← started.option? Time.Moment.ofJson?
      endedAt := ← ended.option? Time.Moment.ofJson?
      ending := ← ending.option? (Ending.ofJsonBelow? 1)
      lastUpdated := ← Time.Moment.ofJson? updated
      usage := ← usage.option? Usage.ofJson? }
  | _ => none

end Snapshot

end BoxRegistry
