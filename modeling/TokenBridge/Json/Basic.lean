namespace TokenBridge

/-- A JSON document. A string has no text if its escapes leave a surrogate without its partner. -/
inductive Json where
  | null
  | bool (b : Bool)
  | nat (n : Nat)
  /-- Any other numeral, as it stands in the document. -/
  | numeral (text : String)
  | string (text : Option String)
  | array (items : List Json)
  | object (members : List (Option String × Json))

namespace Json

def text (s : String) : Json := string (some s)

/-- The value of a member that occurs exactly once. -/
def member? (name : String) (members : List (Option String × Json)) : Option Json :=
  match members.filter (·.1 = some name) with
  | [(_, value)] => some value
  | _ => none

/-- The values of a record's fields. In an object other members may stand beside them; in an array
only they stand, in their order. -/
def fields? (names : List String) : Json → Option (List Json)
  | array items => if items.length = names.length then some items else none
  | object members =>
    if members.all (·.1.isSome) then names.mapM fun name ↦ member? name members else none
  | _ => none

end Json

end TokenBridge
