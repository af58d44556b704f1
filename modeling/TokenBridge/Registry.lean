import TokenBridge.BridgeError
import TokenBridge.Checkpoint
import TokenBridge.Validator.Verification

namespace TokenBridge

structure Registry where
  checkpoint : Checkpoint
  validators : ValidatorSet
  threshold : PowerThreshold
deriving DecidableEq

namespace Registry

def genesis (id : BridgeId) (threshold : PowerThreshold) (vs : ValidatorSet) : Registry :=
  ⟨Checkpoint.compute id vs 0, vs, threshold⟩

variable (r : Registry)

def bridgeId : BridgeId := r.checkpoint.bridgeId

def nonce : UInt64 := r.checkpoint.nonce

def totalPower : UInt64 := r.validators.totalPower

def verify (signatures : SignatureSet) (digest : Word) : Except QuorumError UInt64 :=
  r.validators.verify r.threshold signatures digest

def check : Except Inconsistency Unit :=
  if r.bridgeId.word.isZero then .error .zeroBridgeId
  else
    match PowerThreshold.ofBasisPoints r.threshold.basisPoints with
    | .error _ => .error (.thresholdOutOfRange r.threshold.basisPoints)
    | .ok _ =>
      if !r.checkpoint.isOf r.validators then
        .error (.checkpointMismatch r.checkpoint.commitment r.nonce)
      else if Validator.totalPower r.validators.members ≠ r.totalPower.toNat then
        .error .totalPowerMismatch
      else .ok ()

def rotate (vs : ValidatorSet) (nonce : UInt64) (signatures : SignatureSet) :
    Except BridgeError Checkpoint × Registry :=
  if nonce ≤ r.nonce then (.error (.staleSetNonce nonce r.nonce), r)
  else
    let checkpoint := Checkpoint.compute r.bridgeId vs nonce
    match r.verify signatures checkpoint.signingDigest with
    | .error e => (.error (.quorum e), r)
    | .ok _ => (.ok checkpoint, { r with checkpoint, validators := vs })

end Registry

end TokenBridge
