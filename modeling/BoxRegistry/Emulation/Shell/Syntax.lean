namespace BoxRegistry.Emulation.Shell

/--
A part of a word. Quoted parts are taken as they are; unquoted values are split at blanks.
-/
inductive Part where
  | text (text : String) (quoted : Bool)
  -- The value of a parameter, or of the fallback if there is none.
  | param (name : String) (fallback : Option String) (quoted : Bool)
deriving DecidableEq, Repr, Inhabited

abbrev Word := List Part

structure Redirect where
  fd : Nat
  mode : String
  target : Word
deriving DecidableEq, Repr, Inhabited

inductive Command where
  | nothing
  -- Assignments, and a program or builtin with its arguments.
  | simple (assigns : List (String × Word)) (words : List Word) (redirects : List Redirect)
  | seq (first second : Command)
  | andAlso (first second : Command)
  | orElse (first second : Command)
  | negate (body : Command)
  | background (body : Command)
  | subshell (body : Command)
  | branch (cond yes no : Command)
  -- Repeat while the condition succeeds, or fails if `untilDone`.
  | loop (untilDone : Bool) (cond body : Command)
  | each (name : String) (words : List Word) (body : Command)
  | redirected (body : Command) (redirects : List Redirect)
deriving Repr, Inhabited

inductive Token where
  | word (word : Word)
  | op (text : String)
  | redirect (fd : Nat) (mode : String)
deriving DecidableEq, Repr, Inhabited

end BoxRegistry.Emulation.Shell
