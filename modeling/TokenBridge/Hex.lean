import TokenBridge.Escape
import TokenBridge.FixedBytes

namespace TokenBridge

inductive HexError where
  | oddLength
  | wrongLength
  | badDigit (byte : UInt8) (position : Nat)
deriving DecidableEq, Repr

/-- A bad digit is shown as the single byte it is, whatever character it was part of. -/
def HexError.message : HexError → String
  | oddLength => "odd number of digits"
  | wrongLength => "invalid string length"
  | badDigit byte position =>
    let shown := Escape.quoted (Char.ofNat byte.toNat)
    s!"invalid character {shown} at position {position}"

namespace Hex

def digitChar (n : Nat) : Char :=
  if n < 10 then Char.ofNat (48 + n) else Char.ofNat (87 + n)

def digit? (byte : UInt8) : Option Nat :=
  let n := byte.toNat
  if 48 ≤ n ∧ n ≤ 57 then some (n - 48)
  else if 97 ≤ n ∧ n ≤ 102 then some (n - 87)
  else if 65 ≤ n ∧ n ≤ 70 then some (n - 55)
  else none

def digits (bytes : Bytes) : List Char :=
  bytes.flatMap fun b ↦ [digitChar (b.toNat / 16), digitChar (b.toNat % 16)]

def encode (bytes : Bytes) : String := String.ofList ('0' :: 'x' :: digits bytes)

def decodeFrom (position : Nat) : Bytes → Except HexError Bytes
  | [] => .ok []
  | [_] => .error .oddLength
  | high :: low :: rest =>
    match digit? high, digit? low with
    | none, _ => .error (.badDigit high position)
    | some _, none => .error (.badDigit low (position + 1))
    | some h, some l => (decodeFrom (position + 2) rest).map (UInt8.ofNat (16 * h + l) :: ·)

def stripMark : Bytes → Bytes
  | 48 :: 120 :: rest => rest
  | 48 :: 88 :: rest => rest
  | bytes => bytes

end Hex

namespace FixedBytes

def toHex {n : Nat} (a : FixedBytes n) : String := Hex.encode a.bytes

/-- Lengths are checked before digits, and an odd length before a wrong one. -/
def ofHex (n : Nat) (text : String) : Except HexError (FixedBytes n) :=
  let digits := Hex.stripMark (Bytes.ofText text)
  if digits.length % 2 = 1 then .error .oddLength
  else if digits.length ≠ 2 * n then .error .wrongLength
  else match Hex.decodeFrom 0 digits with
    | .error e => .error e
    | .ok bytes => if h : bytes.length = n then .ok ⟨bytes, h⟩ else .error .wrongLength

end FixedBytes

end TokenBridge
