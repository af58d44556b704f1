import TokenBridge.FixedBytes

namespace TokenBridge.Abi

inductive Value where
  | word (w : Word)
  | words (ws : List Word)
deriving DecidableEq

def wordOfNat (n : Nat) : Word := FixedBytes.ofNat 32 n

def Value.tail : Value → List Word
  | word _ => []
  | words ws => wordOfNat ws.length :: ws

/-- One word per parameter. A list's word is the distance in bytes to its tail, which starts at
`offset` for the first list. -/
def heads (offset : Nat) : List Value → List Word
  | [] => []
  | .word w :: rest => w :: heads offset rest
  | .words ws :: rest => wordOfNat offset :: heads (offset + 32 * (ws.length + 1)) rest

def encodeWords (values : List Value) : List Word :=
  heads (32 * values.length) values ++ values.flatMap Value.tail

def encode (values : List Value) : Bytes := (encodeWords values).flatMap (·.bytes)

def readWords? : (count : Nat) → Bytes → Option (List Word)
  | 0, _ => some []
  | count + 1, data => do
    let w ← FixedBytes.ofBytes? (data.take 32)
    let rest ← readWords? count (data.drop 32)
    some (w :: rest)

end TokenBridge.Abi
