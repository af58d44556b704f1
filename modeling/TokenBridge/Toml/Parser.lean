import TokenBridge.Toml.Numeral

namespace TokenBridge.Toml

structure Section where
  path : List String
  /-- Whether the header makes a new item of an array. -/
  isItem : Bool
  entries : List (String × Value)

namespace Parser

def skipGap : List Token → List Token
  | .gap _ :: rest => rest
  | rest => rest

def isSpace : Token → Bool
  | .gap _ | .newline => true
  | _ => false

def skipSpace (rest : List Token) : List Token := rest.dropWhile isSpace

def endLine? (rest : List Token) : Option (List Token) :=
  match skipGap rest with
  | [] => some []
  | .newline :: rest => some rest
  | _ => none

def key? : List Token → Option (String × List Token)
  | .word letters :: rest => some (String.ofList letters, rest)
  | .string text false :: rest => some (String.ofList text, rest)
  | _ => none

def path? : Nat → List Token → Option (List String × List Token)
  | 0, _ => none
  | fuel + 1, rest => do
    let (key, rest) ← key? (skipGap rest)
    match skipGap rest with
    | .mark '.' :: rest =>
      let (path, rest) ← path? fuel rest
      some (key :: path, rest)
    | rest => some ([key], rest)

mutual

/-- Reads a value that starts here. The first argument bounds the depth of the search. -/
def value? : Nat → List Token → Option (Value × List Token)
  | 0, _ => none
  | fuel + 1, input =>
    match input with
    | .string text _ :: rest => some (.string (String.ofList text), rest)
    | .word s :: rest => Numeral.word? s rest
    | .mark '+' :: .word s :: rest => Numeral.number? s rest
    | .mark '[' :: rest => (items? fuel rest).map fun (found, rest) ↦ (.array found, rest)
    | .mark '{' :: rest =>
      match skipGap rest with
      | .mark '}' :: rest => some (.table false [], rest)
      | rest => (inline? fuel [] rest).map fun (found, rest) ↦ (.table false found, rest)
    | _ => none

/-- Reads what is left of an array. A comma may stand behind the last item. -/
def items? : Nat → List Token → Option (List Value × List Token)
  | 0, _ => none
  | fuel + 1, input =>
    match skipSpace input with
    | .mark ']' :: rest => some ([], rest)
    | rest => do
      let (v, rest) ← value? fuel rest
      match skipSpace rest with
      | .mark ',' :: rest =>
        let (found, rest) ← items? fuel rest
        some (v :: found, rest)
      | .mark ']' :: rest => some ([v], rest)
      | _ => none

/-- Reads what is left of a table on one line, behind `entries`. No comma stands behind the last
entry. -/
def inline? : Nat → List (String × Value) → List Token →
    Option (List (String × Value) × List Token)
  | 0, _, _ => none
  | fuel + 1, entries, input => do
    let (v, path, rest) ← entry? fuel input
    let entries ← v.insertAt path entries
    match skipGap rest with
    | .mark '}' :: rest => some (entries, rest)
    | .mark ',' :: rest => inline? fuel entries (skipGap rest)
    | _ => none

def entry? : Nat → List Token → Option (Value × List String × List Token)
  | 0, _ => none
  | fuel + 1, input => do
    let (path, rest) ← path? input.length input
    match rest with
    | .mark '=' :: rest =>
      let (v, rest) ← value? fuel (skipGap rest)
      some (v, path, rest)
    | _ => none

end

def header? (input : List Token) : Option (Section × List Token) := do
  let (isItem, rest) := match input with
    | .mark '[' :: rest => (true, rest)
    | rest => (false, rest)
  let (path, rest) ← path? input.length rest
  match isItem, rest with
  | false, .mark ']' :: rest => (endLine? rest).map fun rest ↦ (⟨path, false, []⟩, rest)
  | true, .mark ']' :: .mark ']' :: rest =>
    (endLine? rest).map fun rest ↦ (⟨path, true, []⟩, rest)
  | _, _ => none

/-- Reads the lines of a document, of which the first belong to the section that is given. Each
token needs at most three steps. -/
def sections? : Nat → Section → List Token → Option (List Section)
  | 0, _, _ => none
  | fuel + 1, current, input =>
    match skipSpace input with
    | [] => some [current]
    | .mark '[' :: rest => do
      let (next, rest) ← header? rest
      (sections? fuel next rest).map (current :: ·)
    | rest => do
      let (v, path, rest) ← entry? (3 * rest.length + 3) rest
      let entries ← v.insertAt path current.entries
      let rest ← endLine? rest
      sections? fuel { current with entries } rest

end Parser

def Section.ofText? (text : String) : Option (List Section) := do
  let tokens ← Token.ofText? text
  Parser.sections? (tokens.length + 1) ⟨[], false, []⟩ tokens

end TokenBridge.Toml
