import TokenBridge.Account
import TokenBridge.Curve.Ecdsa

namespace TokenBridge

inductive RecoveryError where
  | invalidLength (length : Nat)
  | invalidRecoveryId (v : UInt8)
  | malformedSignature
  | unrecoverable
deriving DecidableEq, Repr

def RecoveryError.message : RecoveryError → String
  | invalidLength length => s!"invalid signature length: expected 65, got {length}"
  | invalidRecoveryId v => s!"invalid recovery id: {v}"
  | malformedSignature => "malformed signature"
  | unrecoverable => "signature is unrecoverable"

/-- A signature from which its signer can be recovered; `v` is kept as received. -/
structure Signature where
  r : Word
  s : Word
  v : UInt8
deriving DecidableEq

namespace Signature

def bytes (sig : Signature) : Bytes := sig.r.bytes ++ sig.s.bytes ++ [sig.v]

def ofBytes (bytes : Bytes) : Except RecoveryError Signature :=
  if h : bytes.length = 65 then
    .ok {
      r := ⟨bytes.take 32, by rw [List.length_take, h]; rfl⟩
      s := ⟨(bytes.drop 32).take 32, by rw [List.length_take, List.length_drop, h]; rfl⟩
      v := bytes[64] }
  else .error (.invalidLength bytes.length)

/-- Both `0, 1` and `27, 28` are in use for the two recovery ids. -/
def recoveryId (sig : Signature) : Except RecoveryError (Fin 2) :=
  if sig.v = 0 ∨ sig.v = 27 then .ok 0
  else if sig.v = 1 ∨ sig.v = 28 then .ok 1
  else .error (.invalidRecoveryId sig.v)

end Signature

def recoverSigner (digest : Word) (sig : Signature) : Except RecoveryError Address := do
  let id ← sig.recoveryId
  match Secp256k1.reduced? Secp256k1.groupOrder sig.r.toNat,
      Secp256k1.reduced? Secp256k1.groupOrder sig.s.toNat with
  | some r, some s =>
    match Secp256k1.recoverKey? digest r s (id = 1) with
    | some key => .ok (Address.ofKey key)
    | none => .error .unrecoverable
  | _, _ => .error .malformedSignature

end TokenBridge
