import TokenBridge.DataError

namespace TokenBridge

/-- Tells deployments apart; everything validators sign starts with it. A short name stands at the
left end of the word. -/
structure BridgeId where
  word : Word
  ne_zero : word.isZero = false
deriving DecidableEq

namespace BridgeId

def ofWord (word : Word) : Except DataError BridgeId :=
  if h : word.isZero = false then .ok ⟨word, h⟩ else .error .zeroBridgeId

def ofBytes (bytes : Bytes) : Except DataError BridgeId :=
  if h : bytes.length ≤ 32 then ofWord (FixedBytes.padRight bytes h)
  else .error (.invalidBridgeIdLength bytes.length)

def ofName (name : String) : Except DataError BridgeId := ofBytes (Bytes.ofText name)

/-- Hex digits if the text has their number and starts with `0x`, else a name. -/
def ofText (text : String) : Except DataError BridgeId :=
  let bytes := Bytes.ofText text
  if bytes.length = 66 ∧ bytes.take 2 = [48, 120] then
    match FixedBytes.ofHex 32 text with
    | .ok word => ofWord word
    | .error cause => .error (.invalidBridgeIdHex cause)
  else ofBytes bytes

def isPrintable (b : UInt8) : Bool := 32 ≤ b && b ≤ 126

def trimmed (id : BridgeId) : Bytes := (id.word.bytes.reverse.dropWhile (· == 0)).reverse

def name? (id : BridgeId) : Option String :=
  if id.trimmed.all isPrintable then
    some (String.ofList (id.trimmed.map fun b ↦ Char.ofNat b.toNat))
  else none

def text (id : BridgeId) : String := id.word.toHex

/-- A name in quotes, with a backslash before a quote or a backslash; else the digits. -/
def debugText (id : BridgeId) : String :=
  match id.name? with
  | some name =>
    let escaped := name.toList.flatMap fun c ↦ if c = '"' ∨ c = '\\' then ['\\', c] else [c]
    let quoted := String.ofList ('"' :: escaped ++ ['"'])
    s!"BridgeId({quoted})"
  | none => s!"BridgeId({id.text})"

end BridgeId

end TokenBridge
