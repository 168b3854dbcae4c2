import BoxRegistry.Emulation.Shell.Lexer

/-!
This module contains the parser of shell scripts. Pipelines, functions and selections by pattern are
not part of the language.
-/

namespace BoxRegistry.Emulation.Shell

def Token.isKeyword (token : Token) (keyword : String) : Bool :=
  token = .word [.text keyword false]

def startsWith (keywords : List String) (tokens : List Token) : Bool :=
  match tokens with
  | token :: _ => keywords.any token.isKeyword
  | [] => false

def closers : List String :=
  ["then", "else", "elif", "fi", "do", "done", "\x7d"]

def expect (keyword : String) : List Token → Option (List Token)
  | token :: rest => if token.isKeyword keyword then some rest else none
  | [] => none

def skipLines (tokens : List Token) : List Token :=
  tokens.dropWhile fun token => token = .op "\n"

def takeWords : List Token → List Word × List Token
  | .word word :: rest =>
    let (words, rest) := takeWords rest
    (word :: words, rest)
  | rest => ([], rest)

def takeRedirects : List Token → List Redirect × List Token
  | .redirect fd mode :: .word target :: rest =>
    let (redirects, rest) := takeRedirects rest
    (⟨fd, mode, target⟩ :: redirects, rest)
  | rest => ([], rest)

def assignment? : Word → Option (String × Word)
  | .text text false :: rest =>
    let name := String.ofList (text.toList.takeWhile (· ≠ '='))
    match text.toList.dropWhile (· ≠ '=') with
    | _ :: value =>
      if isName name then
        some (name, if value.isEmpty then rest else .text (String.ofList value) false :: rest)
      else none
    | [] => none
  | _ => none

/--
The assignments, words and redirections of a simple command, and the tokens after it. Assignments come
before all words.
-/
def parseSimple (named : Bool) : List Token → (List (String × Word) × List Word × List Redirect) ×
    List Token
  | .redirect fd mode :: .word target :: rest =>
    let ((assigns, words, redirects), rest) := parseSimple named rest
    ((assigns, words, ⟨fd, mode, target⟩ :: redirects), rest)
  | .word word :: rest =>
    match if named then none else assignment? word with
    | some assign =>
      let ((assigns, words, redirects), rest) := parseSimple false rest
      ((assign :: assigns, words, redirects), rest)
    | none =>
      let ((assigns, words, redirects), rest) := parseSimple true rest
      ((assigns, word :: words, redirects), rest)
  | rest => (([], [], []), rest)

def parsePlain (tokens : List Token) : Option (Command × List Token) :=
  match parseSimple false tokens with
  | (([], [], []), _) => none
  | ((assigns, words, redirects), rest) => some (.simple assigns words redirects, rest)

def parseRedirected (body : Command) (tokens : List Token) : Option (Command × List Token) :=
  match takeRedirects tokens with
  | ([], rest) => some (body, rest)
  | (redirects, rest) => some (.redirected body redirects, rest)

mutual

def parseList : Nat → List Token → Option (Command × List Token)
  | 0, _ => none
  | fuel + 1, tokens =>
    let tokens := skipLines tokens
    if tokens.isEmpty || tokens.head? = some (.op ")") || startsWith closers tokens then
      some (.nothing, tokens)
    else do
      let (first, rest) ← parseChain fuel tokens
      match rest with
      | .op "&" :: rest =>
        let (second, rest) ← parseList fuel rest
        return (.seq (.background first) second, rest)
      | .op ";" :: rest | .op "\n" :: rest =>
        let (second, rest) ← parseList fuel rest
        return (.seq first second, rest)
      | rest => return (first, rest)

def parseChain : Nat → List Token → Option (Command × List Token)
  | 0, _ => none
  | fuel + 1, tokens => do
    let (first, rest) ← parseCommand fuel tokens
    parseMore fuel first rest

def parseMore : Nat → Command → List Token → Option (Command × List Token)
  | 0, _, _ => none
  | fuel + 1, first, tokens =>
    match tokens with
    | .op "&&" :: rest => do
      let (second, rest) ← parseCommand fuel (skipLines rest)
      parseMore fuel (.andAlso first second) rest
    | .op "||" :: rest => do
      let (second, rest) ← parseCommand fuel (skipLines rest)
      parseMore fuel (.orElse first second) rest
    | rest => some (first, rest)

def parseCommand : Nat → List Token → Option (Command × List Token)
  | 0, _ => none
  | fuel + 1, tokens =>
    match tokens with
    | .op "(" :: rest => do
      let (body, rest) ← parseList fuel rest
      match rest with
      | .op ")" :: rest => parseRedirected (.subshell body) rest
      | _ => none
    | .word [.text keyword false] :: rest =>
      if keyword = "!" then do
        let (body, rest) ← parseCommand fuel rest
        return (.negate body, rest)
      else if keyword = "\x7b" then do
        let (body, rest) ← parseList fuel rest
        parseRedirected body (← expect "\x7d" rest)
      else if keyword = "if" then parseBranch fuel rest
      else if keyword = "while" ∨ keyword = "until" then do
        let (cond, rest) ← parseList fuel rest
        let (body, rest) ← parseList fuel (← expect "do" rest)
        parseRedirected (.loop (keyword = "until") cond body) (← expect "done" rest)
      else if keyword = "for" then
        match rest with
        | .word [.text name false] :: rest => do
          let (words, rest) :=
            if startsWith ["in"] rest then takeWords (rest.drop 1)
            else ([[.param "@" none true]], rest)
          let rest := rest.dropWhile fun token => token = .op ";" ∨ token = .op "\n"
          let (body, rest) ← parseList fuel (← expect "do" rest)
          parseRedirected (.each name words body) (← expect "done" rest)
        | _ => none
      else if closers.contains keyword then none
      else parsePlain tokens
    | _ => parsePlain tokens

def parseBranch : Nat → List Token → Option (Command × List Token)
  | 0, _ => none
  | fuel + 1, tokens => do
    let (cond, rest) ← parseList fuel tokens
    let (yes, rest) ← parseList fuel (← expect "then" rest)
    if startsWith ["elif"] rest then
      let (no, rest) ← parseBranch fuel (rest.drop 1)
      return (.branch cond yes no, rest)
    else if startsWith ["else"] rest then
      let (no, rest) ← parseList fuel (rest.drop 1)
      parseRedirected (.branch cond yes no) (← expect "fi" rest)
    else
      parseRedirected (.branch cond yes .nothing) (← expect "fi" rest)

end

def parse? (script : String) : Option Command := do
  let tokens ← tokens? script
  match ← parseList (4 * tokens.length + 4) tokens with
  | (command, []) => some command
  | _ => none

end BoxRegistry.Emulation.Shell
