import TokenBridge.Validator.Signatures
import TokenBridge.Validator.Threshold

namespace TokenBridge

abbrev Recovery := Word → Signature → Except RecoveryError Address

namespace ValidatorSet

variable (vs : ValidatorSet) (recover : Recovery)

/-- A present signature must name the validator of its slot and recover to it. -/
def authenticate (digest : Word) (index : Nat) (v : Validator) (a : Attestation) :
    Except QuorumError Unit :=
  if a.validator ≠ v.address then .error (.orderMismatch index v.address a.validator)
  else
    match recover digest a.signature with
    | .error cause => .error (.malformedSignature index cause)
    | .ok signer =>
      if signer = v.address then .ok ()
      else if vs.contains signer then .error (.orderMismatch index v.address signer)
      else .error (.invalidSignature index)

def tally (digest : Word) (index : Nat) (signed : UInt64) :
    List (Validator × Option Attestation) → Except QuorumError UInt64
  | [] => .ok signed
  | (_, none) :: rest => tally digest (index + 1) signed rest
  | (v, some a) :: rest =>
    match authenticate vs recover digest index v a with
    | .error e => .error e
    | .ok () => tally digest (index + 1) (signed + v.power) rest

def verifyBy (threshold : PowerThreshold) (signatures : SignatureSet) (digest : Word) :
    Except QuorumError UInt64 :=
  if signatures.size ≠ vs.size then .error (.lengthMismatch signatures.size vs.size)
  else
    match tally vs recover digest 0 0 (vs.members.zip signatures.slots) with
    | .error e => .error e
    | .ok signed =>
      if threshold.isMet signed vs.totalPower then .ok signed
      else .error (.insufficientPower signed vs.totalPower threshold.basisPoints)

def verify (threshold : PowerThreshold) (signatures : SignatureSet) (digest : Word) :
    Except QuorumError UInt64 :=
  vs.verifyBy recoverSigner threshold signatures digest

end ValidatorSet

end TokenBridge
