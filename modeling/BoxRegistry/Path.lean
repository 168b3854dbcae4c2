namespace BoxRegistry.Path

def isAbsolute (path : String) : Bool :=
  path.toList.head? = some '/'

/--
A path below another one. A slash is put between them unless the first is empty or ends in one; a
second path that is absolute stands alone.
-/
def join (base rest : String) : String :=
  if isAbsolute rest then rest
  else if base.isEmpty || base.toList.getLast? = some '/' then base ++ rest
  else base ++ "/" ++ rest

/--
The parts of a path between its slashes. Repeated slashes make empty parts.
-/
def parts (path : String) : List String :=
  (path.toList.splitOn '/').map String.ofList

def steps (path : String) : List String :=
  match parts path with
  | [] => []
  | first :: rest =>
    (if first.isEmpty then [] else [first]) ++ rest.filter fun part => part ≠ "" ∧ part ≠ "."

def parent? (path : String) : Option String :=
  match steps path with
  | [] => none
  | names =>
    let rest := "/".intercalate names.dropLast
    some (if isAbsolute path then "/" ++ rest else rest)

end BoxRegistry.Path
