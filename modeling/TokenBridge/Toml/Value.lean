namespace TokenBridge.Toml

/-- What a document holds under a key. Of numbers with a point and of dates only the kind is kept. -/
inductive Value where
  | string (text : String)
  | integer (n : Int)
  | boolean (b : Bool)
  | float
  | date
  | array (items : List Value)
  /-- The entries stand as written, and a key may occur more than once. Only dotted keys add to a
  table that dotted keys made. -/
  | table (dotted : Bool) (entries : List (String × Value))

namespace Value

def update (key : String) (change : Option Value → Option Value) :
    List (String × Value) → Option (List (String × Value))
  | [] => (change none).map fun v ↦ [(key, v)]
  | (k, v) :: rest =>
    if k = key then (change (some v)).map fun v ↦ (k, v) :: rest
    else (update key change rest).map ((k, v) :: ·)

def insertAt (v : Value) : List String → List (String × Value) → Option (List (String × Value))
  | [], _ => none
  | [key], entries => some (entries ++ [(key, v)])
  | key :: path, entries =>
    update key (fun
      | none => (insertAt v path []).map (table true)
      | some (table true inner) => (insertAt v path inner).map (table true)
      | some _ => none) entries

end Value

end TokenBridge.Toml
