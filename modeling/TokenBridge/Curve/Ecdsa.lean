import TokenBridge.Curve.Secp256k1
import TokenBridge.Hash.Sha256

namespace TokenBridge.Secp256k1

/-- A signature together with what its signer's key is recovered from: the parity of the nonce
point's `y`, and whether its `x` was reduced to give `r`. -/
structure RecoverableSignature where
  r : Scalar
  s : Scalar
  odd : Bool
  overflowed : Bool
deriving DecidableEq

def Scalar.ofDigest (digest : Word) : Scalar := Fin.ofNat groupOrder digest.toNat

/-- The key whose signature with nonce point `(r, ·)` over the digest this is:
`r⁻¹ (s R - m G)`. -/
def recoverKey? (digest : Word) (r s : Scalar) (odd : Bool) : Option Point :=
  if r = 0 ∨ s = 0 then none
  else do
    let x ← reduced? fieldOrder r.val
    let nonce ← Point.ofX? x odd
    let inv := inverse r
    let onGenerator : Scalar := 0 - inv * Scalar.ofDigest digest
    ((generator.multiply onGenerator).add (nonce.multiply (inv * s))).toPoint?

/-- The deterministic nonce stream of RFC 6979, started from the key and the reduced digest. -/
structure NonceStream where
  key : Word
  value : Word

namespace NonceStream

def update (g : NonceStream) (data : Bytes) : NonceStream :=
  let key := hmacSha256 g.key.bytes (g.value.bytes ++ data)
  ⟨key, hmacSha256 key.bytes g.value.bytes⟩

def start (key message : Scalar) : NonceStream :=
  let seed := Bytes.ofNatBE 32 key.val ++ Bytes.ofNatBE 32 message.val
  let fresh : NonceStream := ⟨FixedBytes.zero 32, ⟨List.replicate 32 1, List.length_replicate⟩⟩
  (fresh.update (0 :: seed)).update (1 :: seed)

def next (g : NonceStream) : Word × NonceStream :=
  let value := hmacSha256 g.key.bytes g.value.bytes
  (value, (⟨g.key, value⟩ : NonceStream).update [0])

end NonceStream

/-- Signs with one nonce. Of `s` and `-s` the smaller is taken, which flips the parity. -/
def signWith? (key message nonce : Scalar) : Option RecoverableSignature := do
  let point ← (generator.multiply nonce).toPoint?
  let r : Scalar := Fin.ofNat groupOrder point.x.val
  let s := inverse nonce * (message + r * key)
  if r = 0 ∨ s = 0 then none
  else
    let overflowed := decide (groupOrder ≤ point.x.val)
    if s.val ≤ groupOrder / 2 then some ⟨r, s, isOdd point.y, overflowed⟩
    else some ⟨r, 0 - s, !isOdd point.y, overflowed⟩

/-- Tries the next `attempts` nonces of the stream; one is refused with a chance near `2⁻¹²⁸`. -/
def signFrom? (key message : Scalar) : (attempts : Nat) → NonceStream → Option RecoverableSignature
  | 0, _ => none
  | attempts + 1, g =>
    let (value, rest) := g.next
    match (reduced? groupOrder value.toNat).bind (signWith? key message) with
    | some signature => some signature
    | none => signFrom? key message attempts rest

def sign? (key : Scalar) (digest : Word) : Option RecoverableSignature :=
  let message := Scalar.ofDigest digest
  signFrom? key message 256 (NonceStream.start key message)

end TokenBridge.Secp256k1
