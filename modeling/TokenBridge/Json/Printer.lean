import TokenBridge.Escape
import TokenBridge.Hex
import TokenBridge.Json.Basic

namespace TokenBridge.Json

structure Layout where
  /-- Before an item, and before the bracket that ends a list, behind so many open brackets. -/
  lead : Nat → List Char
  colon : List Char

def Layout.compact : Layout := ⟨fun _ ↦ [], [':']⟩

def Layout.lines : Layout := ⟨fun depth ↦ '\n' :: List.replicate (2 * depth) ' ', [':', ' ']⟩

def escape (c : Char) : List Char :=
  match Escape.letter? c with
  | some letter => ['\\', letter]
  | none =>
    if c.toNat < 32 then
      ['\\', 'u', '0', '0', Hex.digitChar (c.toNat / 16), Hex.digitChar (c.toNat % 16)]
    else [c]

/-- A string without a text shows as the replacement character. -/
def quote (s : Option String) : List Char :=
  '"' :: (s.getD "\ufffd").toList.flatMap escape ++ ['"']

mutual

def write (l : Layout) (depth : Nat) : Json → List Char
  | null => ['n', 'u', 'l', 'l']
  | bool true => ['t', 'r', 'u', 'e']
  | bool false => ['f', 'a', 'l', 's', 'e']
  | nat n => Nat.toDigits 10 n
  | numeral s => s.toList
  | string s => quote s
  | array [] => ['[', ']']
  | array (x :: rest) =>
    '[' :: l.lead (depth + 1) ++ write l (depth + 1) x ++ writeItems l depth rest
  | object [] => ['{', '}']
  | object ((name, x) :: rest) =>
    '{' :: l.lead (depth + 1) ++ quote name ++ l.colon ++ write l (depth + 1) x
      ++ writeMembers l depth rest

def writeItems (l : Layout) (depth : Nat) : List Json → List Char
  | [] => l.lead depth ++ [']']
  | x :: rest =>
    ',' :: l.lead (depth + 1) ++ write l (depth + 1) x ++ writeItems l depth rest

def writeMembers (l : Layout) (depth : Nat) : List (Option String × Json) → List Char
  | [] => l.lead depth ++ ['}']
  | (name, x) :: rest =>
    ',' :: l.lead (depth + 1) ++ quote name ++ l.colon ++ write l (depth + 1) x
      ++ writeMembers l depth rest

end

def compact (j : Json) : String := String.ofList (write .compact 0 j)

def pretty (j : Json) : String := String.ofList (write .lines 0 j)

end TokenBridge.Json
