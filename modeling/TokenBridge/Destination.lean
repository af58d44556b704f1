import TokenBridge.DataError

namespace TokenBridge

structure Destination where
  bytes : Bytes
  pos : 0 < bytes.length
  length_le : bytes.length ≤ 32
deriving DecidableEq

namespace Destination

def ofBytes (bytes : Bytes) : Except DataError Destination :=
  if h : 0 < bytes.length ∧ bytes.length ≤ 32 then .ok ⟨bytes, h.1, h.2⟩
  else .error (.invalidDestination bytes.length)

def toWord (d : Destination) : Word := FixedBytes.padLeft d.bytes d.length_le

/-- Drops the zeros of a log's word, and with them those the address started with. -/
def ofWord (word : Word) : Except DataError Destination := ofBytes (word.bytes.dropWhile (· == 0))

def text (d : Destination) : String := Hex.encode d.bytes

def debugText (d : Destination) : String := s!"DestinationAddress({d.text})"

/-- Reads digits with or without `0x`. Whatever is wrong with them, the length of the whole text
is reported. -/
def ofText (text : String) : Except DataError Destination :=
  let bytes := Bytes.ofText text
  let digits := if bytes.take 2 = [48, 120] then bytes.drop 2 else bytes
  match Hex.decodeFrom 0 digits with
  | .ok decoded => ofBytes decoded
  | .error _ => .error (.invalidDestination bytes.length)

end Destination

end TokenBridge
