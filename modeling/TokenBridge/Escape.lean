namespace TokenBridge.Escape

def shorthands : List (Char × Char) :=
  [('"', '"'), ('\\', '\\'), ('\x08', 'b'), ('\x0c', 'f'), ('\n', 'n'), ('\r', 'r'), ('\t', 't')]

def letter? (c : Char) : Option Char := (shorthands.find? (·.1 = c)).map (·.2)

def ofLetter? (letter : Char) : Option Char := (shorthands.find? (·.2 = letter)).map (·.1)

def hexDigit? (c : Char) : Option Nat :=
  if '0' ≤ c ∧ c ≤ '9' then some (c.toNat - 48)
  else if 'a' ≤ c ∧ c ≤ 'f' then some (c.toNat - 87)
  else if 'A' ≤ c ∧ c ≤ 'F' then some (c.toNat - 55)
  else none

def hexValue? (digits : List Char) : Option Nat :=
  digits.foldlM (fun n c ↦ (hexDigit? c).map (16 * n + ·)) 0

def quoted (c : Char) : String :=
  let shown : List Char :=
    if c = '\x00' then ['\\', '0']
    else if c = '\t' then ['\\', 't']
    else if c = '\r' then ['\\', 'r']
    else if c = '\n' then ['\\', 'n']
    else if c = '\x27' ∨ c = '\\' then ['\\', c]
    else if c.toNat < 32 ∨ 127 ≤ c.toNat ∧ c.toNat < 160 then
      ['\\', 'u', '\x7b'] ++ Nat.toDigits 16 c.toNat ++ ['\x7d']
    else [c]
  String.ofList ('\x27' :: shown ++ ['\x27'])

end TokenBridge.Escape
