import BoxRegistry.Home.FileTree
import BoxRegistry.Settings

/-!
This module contains the services that are open on a host and the lock that each of them holds in its
home. A service lives for as long as any of its handles does, and its lock with it. A service that is
shut down still has its lock.
-/

namespace BoxRegistry

/--
What services ask of the file system of their host. A failure is a message. An open file is known by
what it is, and not by the path that led to it.
-/
class FileSystem (φ : Type) (ι : outParam Type) where
  makeAll : φ → String → φ × Except String Unit
  -- Open a file in order to write, and make an empty one if there is none.
  openFile : φ → String → Except String (ι × φ)
  -- Whether the system grants locks on a file that nobody has locked.
  grants : φ → ι → Except String Unit

instance : FileSystem FileTree Place where
  makeAll files path := ((files.makeAll path).1, (files.makeAll path).2.mapError PathFailure.message)
  openFile files path := (files.openFile path).mapError PathFailure.message
  grants _ _ := .ok ()

structure LogHost (φ : Type) where
  -- The log of the process is there already.
  isSet : Bool := true
  -- Open the log file of the day in a directory, whose name begins with the text.
  openLog : φ → String → String → φ × Except String Unit := fun files _ _ => (files, .ok ())
  -- The filter that the environment of the process asks for.
  filter : Except String Unit := .ok ()

structure OpenService (ι : Type := Place) where
  settings : Settings
  lock : ι
  closed : Bool := false
deriving DecidableEq, Repr, Inhabited

structure Homes (φ : Type := FileTree) (ι : Type := Place) where
  files : φ
  services : List (Nat × OpenService ι) := []
  handles : List (String × Nat) := []
  next : Nat := 0
deriving DecidableEq, Repr, Inhabited

namespace Layout

variable {φ ι : Type} [FileSystem φ ι]

def prepare (l : Layout) (files : φ) : φ × Except Fault Unit :=
  match FileSystem.makeAll files l.home with
  | (files, .error message) => (files, .error (.storage ("failed to create home: " ++ message)))
  | (files, .ok _) =>
    match FileSystem.makeAll files l.logs with
    | (files, .error message) => (files, .error (.storage ("failed to create logs dir: " ++ message)))
    | (files, .ok _) => (files, .ok ())

def setUpLog (l : Layout) (host : LogHost φ) (files : φ) : φ × Except Fault Unit :=
  if host.isSet then (files, .ok ())
  else
    match host.openLog files l.logs logFileName with
    | (files, .error message) => (files, .error (.storage ("failed to open log file: " ++ message)))
    | (files, .ok _) =>
      (files, host.filter.mapError fun message => .config ("invalid log filter: " ++ message))

end Layout

namespace Homes

variable {φ ι : Type} [FileSystem φ ι] [DecidableEq ι]

def isLocked (h : Homes φ ι) (file : ι) : Bool :=
  h.services.any fun s => s.2.lock = file

def acquire (h : Homes φ ι) (l : Layout) : φ × Except Fault ι :=
  match FileSystem.openFile h.files l.lock with
  | .error message => (h.files, .error (.storage ("failed to open lock file: " ++ message)))
  | .ok (file, files) =>
    if h.isLocked file then
      (files,
        .error (.setupFailed ("Another BoxliteRuntime is already using directory: " ++ l.home)))
    else
      match FileSystem.grants files file with
      | .error message => (files, .error (.storage ("failed to acquire lock: " ++ message)))
      | .ok _ => (files, .ok file)

def setUp (h : Homes φ ι) (settings : Settings) (host : LogHost φ := {}) :
    Homes φ ι × Except Fault (OpenService ι) :=
  match settings.check with
  | .error f => (h, .error f)
  | .ok _ =>
    let l : Layout := ⟨settings.home⟩
    match l.prepare h.files with
    | (files, .error f) =>
      ({ h with files },
        .error (f.duringSetup ("failed to initialize filesystem at " ++ settings.home)))
    | (files, .ok _) =>
      match l.setUpLog host files with
      | (files, .error f) => ({ h with files }, .error (f.duringSetup "failed to initialize logging"))
      | (files, .ok _) =>
        match acquire { h with files } l with
        | (files, .error f) => ({ h with files }, .error (f.duringSetup "failed to acquire runtime lock"))
        | (files, .ok lock) => ({ h with files }, .ok { settings, lock })

def sweep (h : Homes φ ι) : Homes φ ι :=
  { h with services := h.services.filter fun s => h.handles.any fun handle => handle.2 = s.1 }

/--
Make a label the handle of a service. What it was the handle of before is dropped.
-/
def bind (h : Homes φ ι) (label : String) (service : Nat) : Homes φ ι :=
  sweep { h with handles := (label, service) :: h.handles.filter fun handle => handle.1 ≠ label }

/--
Open a service and make a label its handle. The service that the label was a handle of still stands
while the new one is set up.
-/
def openAs (h : Homes φ ι) (label : String) (settings : Settings) (host : LogHost φ := {}) :
    Homes φ ι × Except Fault (OpenService ι) :=
  match h.setUp settings host with
  | (h, .error f) => (h, .error f)
  | (h, .ok s) =>
    let h := { h with services := h.services ++ [(h.next, s)], next := h.next + 1 }
    (h.bind label (h.next - 1), .ok s)

def service? (h : Homes φ ι) (label : String) : Option (Nat × OpenService ι) := do
  let n ← h.handles.lookup label
  return (n, ← h.services.lookup n)

def clone (h : Homes φ ι) (source label : String) : Option (Homes φ ι) := do
  let (n, _) ← h.service? source
  return h.bind label n

def drop (h : Homes φ ι) (label : String) : Homes φ ι × Bool :=
  (sweep { h with handles := h.handles.filter fun handle => handle.1 ≠ label },
    (h.handles.lookup label).isSome)

def shutDown (h : Homes φ ι) (label : String) : Option (Homes φ ι × OpenService ι) := do
  let (n, s) ← h.service? label
  let s := { s with closed := true }
  return ({ h with services := h.services.map fun e => if e.1 = n then (n, s) else e }, s)

end Homes

end BoxRegistry
