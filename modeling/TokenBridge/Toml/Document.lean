import TokenBridge.Toml.Parser

namespace TokenBridge.Toml

namespace Section

def below (key : String) (sections : List Section) : List Section :=
  sections.filterMap fun s ↦
    match s.path with
    | k :: path => if k = key then some { s with path } else none
    | [] => none

def startsItem (s : Section) : Bool := s.path = [] && s.isItem

/-- The entries that sections have in common with the tables below them; `depth` bounds the length
of their paths. No table has two sections of its own, and none is added to a table as an item. -/
def assemble? : (depth : Nat) → List Section → Option (List (String × Value))
  | 0, _ => none
  | depth + 1, sections => do
    let own ← match sections.filter (·.path = []) with
      | [] => some []
      | [s] => if s.isItem then none else some s.entries
      | _ => none
    let keys := (sections.filterMap (·.path.head?)).eraseDups
    let tables ← keys.mapM fun key ↦ do
      let members := below key sections
      if members.head?.any startsItem then
        let items := members.splitBy fun _ s ↦ !s.startsItem
        let items ← items.mapM fun
          | s :: rest => assemble? depth ({ s with isItem := false } :: rest)
          | [] => none
        some (key, Value.array (items.map (Value.table false)))
      else
        let entries ← assemble? depth members
        some (key, Value.table false entries)
    some (own ++ tables)

end Section

namespace Document

def ofText? (text : String) : Option (List (String × Value)) := do
  let sections ← Section.ofText? text
  let depth := (sections.map (·.path.length)).foldl max 0
  Section.assemble? (depth + 1) sections

end Document

end TokenBridge.Toml
