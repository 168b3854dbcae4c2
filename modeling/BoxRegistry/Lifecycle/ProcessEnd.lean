namespace BoxRegistry

/--
How a process ended: with a code if it ended on its own, by a signal if it was killed. Neither is known
of a process that was only suspended or resumed.
-/
structure ProcessEnd where
  code : Option Int
  signal : Option Int
deriving DecidableEq, Repr, Inhabited

namespace ProcessEnd

def exited (code : Int) : ProcessEnd := ⟨some code, none⟩

def signaled (signal : Int) : ProcessEnd := ⟨none, some signal⟩

/--
Read a wait status. The low seven bits are zero for a process that returned the code in the next byte,
and the signal that killed the process otherwise; all ones mark a process that has not ended.
-/
def ofWaitStatus (status : BitVec 32) : ProcessEnd :=
  let low := (status &&& 0x7F#32).toNat
  if low = 0 then exited ((status >>> 8) &&& 0xFF#32).toNat
  else if low = 0x7F then ⟨none, none⟩
  else signaled low

def isSuccess (e : ProcessEnd) : Bool :=
  e.code = some 0

def text (e : ProcessEnd) : String :=
  match e.code, e.signal with
  | some code, _ => "exit code " ++ toString code
  | none, some signal => "signal " ++ toString signal
  | none, none => "unknown status"

end ProcessEnd

def sigTerm : Int := 15

def sigKill : Int := 9

end BoxRegistry
