import TokenBridge.Json.Excess
import TokenBridge.Json.Shape

namespace TokenBridge.Json

mutual

/-- Reads a document that starts here. The first argument bounds the depth of the search. -/
def value? : Nat → Shape → List Char → Option (Json × List Char)
  | 0, _, _ => none
  | fuel + 1, shape, input =>
    match input with
    | 'n' :: 'u' :: 'l' :: 'l' :: rest => some (null, rest)
    | 't' :: 'r' :: 'u' :: 'e' :: rest => some (bool true, rest)
    | 'f' :: 'a' :: 'l' :: 's' :: 'e' :: rest => some (bool false, rest)
    | '"' :: rest => (string? rest).map fun (s, rest) ↦ (string s, rest)
    | '[' :: rest =>
      match skip rest with
      | ']' :: rest => some (array [], rest)
      | rest => (items? fuel shape 0 rest).map fun (found, rest) ↦ (array found, rest)
    | '{' :: rest =>
      match skip rest with
      | '}' :: rest => some (object [], rest)
      | rest => (members? fuel shape rest).map fun (found, rest) ↦ (object found, rest)
    | input => numeral? input

/-- Reads the items of an array from the one with this index on, of which there is at least one, and
its end. A full array may end behind what one more byte cannot be read from. -/
def items? : Nat → Shape → Nat → List Char → Option (List Json × List Char)
  | 0, _, _, _ => none
  | fuel + 1, shape, index, input => do
    let (x, rest) ← value? fuel (shape.item index) input
    match skip rest with
    | ']' :: rest => some ([x], rest)
    | ',' :: rest =>
      if shape.isFull (index + 1) then
        match skip (← Excess.behind? (skip rest)) with
        | ']' :: rest => some ([x], rest)
        | _ => none
      else
        let (found, rest) ← items? fuel shape (index + 1) (skip rest)
        some (x :: found, rest)
    | _ => none

def members? : Nat → Shape → List Char → Option (List (Option String × Json) × List Char)
  | 0, _, _ => none
  | fuel + 1, shape, input =>
    match input with
    | '"' :: rest => do
      let (name, rest) ← string? rest
      match skip rest with
      | ':' :: rest =>
        let (x, rest) ← value? fuel (shape.member name) (skip rest)
        match skip rest with
        | '}' :: rest => some ([(name, x)], rest)
        | ',' :: rest =>
          let (found, rest) ← members? fuel shape (skip rest)
          some ((name, x) :: found, rest)
        | _ => none
      | _ => none
    | _ => none

end

/-- Each character starts at most two steps of the search. -/
def parse? (shape : Shape) (input : List Char) : Option Json :=
  match value? (2 * input.length + 2) shape (skip input) with
  | some (j, rest) => if skip rest = [] then some j else none
  | none => none

def ofText? (shape : Shape) (s : String) : Option Json := parse? shape s.toList

end TokenBridge.Json
