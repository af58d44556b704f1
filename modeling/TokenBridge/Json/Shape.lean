namespace TokenBridge.Json

/-- What is expected at a place of a document, as far as it tells where the place ends. -/
inductive Shape where
  | any
  /-- An array of so many bytes, where an array stands at all. -/
  | bytes (length : Nat)
  | list (item : Shape)
  | record (fields : List (String × Shape))

namespace Shape

def item (index : Nat) : Shape → Shape
  | list s => s
  | record fields =>
    match fields[index]? with
    | some (_, s) => s
    | none => any
  | _ => any

def member (name : Option String) : Shape → Shape
  | record fields =>
    match fields.find? fun field ↦ name = some field.1 with
    | some (_, s) => s
    | none => any
  | _ => any

def isFull (count : Nat) : Shape → Bool
  | bytes length => count = length
  | _ => false

def join (shapes : List Shape) : Shape :=
  record (shapes.flatMap fun
    | record fields => fields
    | _ => [])

end Shape

end TokenBridge.Json
