import TokenBridge.Curve.Secp256k1
import TokenBridge.Hash.Keccak
import TokenBridge.Hex

namespace TokenBridge

def Address.ofKey (key : Secp256k1.Point) : Address := (keccak256 key.bytes).toAddress

/-- Hex digits of which a letter is a capital exactly if the digit at its place in the hash of the
lower-case digits is at least eight. -/
def Address.checksummed (a : Address) : String :=
  let digits := Hex.digits a.bytes
  let hash := (Hex.digits (keccak256 (Bytes.ofText (String.ofList digits))).bytes)
  let capital (c h : Char) : Char := if '8' ≤ h then c.toUpper else c
  String.ofList ('0' :: 'x' :: List.zipWith capital digits hash)

/-- What a wallet signs in place of a 32-byte commitment. -/
def signedMessageHash (commitment : Word) : Word :=
  keccak256 (Bytes.ofText "\x19Ethereum Signed Message:\n32" ++ commitment.bytes)

end TokenBridge
