import TokenBridge.Validator.Signatures

namespace TokenBridge

open Secp256k1 (Scalar)

def Address.ofSecret? (key : Scalar) : Option Address :=
  (Secp256k1.generator.multiply key).toPoint?.map Address.ofKey

/-- Signs the digest as it is, with `v` in the `27, 28` form. -/
def Signature.sign? (key : Scalar) (digest : Word) : Option Signature :=
  (Secp256k1.sign? key digest).map fun sig ↦ {
    r := FixedBytes.ofNat 32 sig.r.val
    s := FixedBytes.ofNat 32 sig.s.val
    v := 27 + (if sig.odd then 1 else 0) + (if sig.overflowed then 2 else 0) }

/-- A validator set whose secret keys are at hand, for trials of the other parts. -/
structure KeyRing where
  keys : List Scalar
  set : ValidatorSet

namespace KeyRing

/-- Keys are numbered from zero on; the secret number is one more. -/
def key (index : Nat) : Scalar := Fin.ofNat Secp256k1.groupOrder (index + 1)

def ofPowers? (offset : Nat) (powers : List UInt64) : Option KeyRing := do
  let keys := (List.range powers.length).map fun i ↦ key (offset + i)
  let addresses ← keys.mapM Address.ofSecret?
  match ValidatorSet.ofParts addresses powers with
  | .ok set => some ⟨keys, set⟩
  | .error _ => none

def attest? (ring : KeyRing) (digest : Word) (index : Nat) : Option Attestation := do
  let key ← ring.keys[index]?
  let v ← ring.set.members[index]?
  let signature ← Signature.sign? key digest
  some ⟨v.address, signature⟩

def sign? (ring : KeyRing) (digest : Word) (signers : List Nat) : Option SignatureSet :=
  signers.foldlM
    (fun s index ↦ (ring.attest? digest index).map (s.insert index))
    (SignatureSet.abstaining ring.keys.length)

def signAll? (ring : KeyRing) (digest : Word) : Option SignatureSet :=
  ring.sign? digest (List.range ring.keys.length)

end KeyRing

end TokenBridge
