namespace BoxRegistry.Host

abbrev Signal := Nat

namespace Signal

def kill : Signal := 9

def terminate : Signal := 15

def proceed : Signal := 18

def halt : Signal := 19

def named : List (String × Signal) :=
  [("HUP", 1), ("INT", 2), ("QUIT", 3), ("ILL", 4), ("TRAP", 5), ("ABRT", 6), ("IOT", 6), ("BUS", 7),
   ("FPE", 8), ("KILL", 9), ("USR1", 10), ("SEGV", 11), ("USR2", 12), ("PIPE", 13), ("ALRM", 14),
   ("TERM", 15), ("STKFLT", 16), ("CHLD", 17), ("CONT", 18), ("STOP", 19), ("TSTP", 20),
   ("TTIN", 21), ("TTOU", 22), ("URG", 23), ("XCPU", 24), ("XFSZ", 25), ("VTALRM", 26),
   ("PROF", 27), ("WINCH", 28), ("IO", 29), ("POLL", 29), ("PWR", 30), ("SYS", 31)]

def count : Nat := 64

def ofName? (text : String) : Option Signal :=
  match text.toNat? with
  | some n => if n ≤ count then some n else none
  | none => named.lookup text

inductive Default where
  | ends
  | ignores
  | halts
  | proceeds
deriving DecidableEq, Repr

def default (s : Signal) : Default :=
  if s = 17 ∨ s = 23 ∨ s = 28 then .ignores
  else if s = proceed then .proceeds
  else if 19 ≤ s ∧ s ≤ 22 then .halts
  else .ends

end Signal

end BoxRegistry.Host
