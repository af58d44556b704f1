import TokenBridge.Abi
import TokenBridge.Account
import TokenBridge.Batch
import TokenBridge.BridgeId
import TokenBridge.Validator.Set

namespace TokenBridge.Commitment

/-- Keeps signatures on validator sets apart from those on batches. -/
def checkpointTag : Word := FixedBytes.padRight (Bytes.ofText "checkpoint") (by decide)

def batchTag : Word := FixedBytes.padRight (Bytes.ofText "transactionBatch") (by decide)

def checkpointFields (id : Word) (addresses : List Address) (powers : List UInt64)
    (nonce : UInt64) : Bytes :=
  Abi.encode [
    .word id,
    .word checkpointTag,
    .word (Abi.wordOfNat nonce.toNat),
    .words (addresses.map Address.toWord),
    .words (powers.map fun power ↦ Abi.wordOfNat power.toNat)]

def checkpointPreimage (id : BridgeId) (vs : ValidatorSet) (nonce : UInt64) : Bytes :=
  checkpointFields id.word vs.addresses vs.powers nonce

def checkpoint (id : BridgeId) (vs : ValidatorSet) (nonce : UInt64) : Word :=
  keccak256 (checkpointPreimage id vs nonce)

def readAddresses (index : Nat) : List Bytes → Except DataError (List Address)
  | [] => .ok []
  | raw :: rest =>
    if h : raw.length = 20 then (readAddresses (index + 1) rest).map (⟨raw, h⟩ :: ·)
    else .error (.invalidAddressLength index raw.length)

/-- The commitment to members of which nothing is asked but the length of their addresses, so that
commitments to sets a bridge would refuse can be computed too. -/
def rawCheckpoint (id : Bytes) (addresses : List Bytes) (powers : List UInt64) (nonce : UInt64) :
    Except DataError Word := do
  let id ← BridgeId.ofBytes id
  if addresses.length ≠ powers.length then
    .error (.validatorArrayMismatch addresses.length powers.length)
  else
    let addresses ← readAddresses 0 addresses
    .ok (keccak256 (checkpointFields id.word addresses powers nonce))

def batchPreimage (id : BridgeId) (batch : Batch) : Bytes :=
  Abi.encode [
    .word id.word,
    .word batchTag,
    .words (batch.payouts.map (·.amount.toWord)),
    .words (batch.payouts.map (·.destination.toWord)),
    .words (batch.payouts.map (·.fee.toWord)),
    .word (Abi.wordOfNat batch.nonce.toNat),
    .word batch.token.toWord]

def batch (id : BridgeId) (batch : Batch) : Word := keccak256 (batchPreimage id batch)

end TokenBridge.Commitment

namespace TokenBridge

def Batch.signingDigest (batch : Batch) (id : BridgeId) : Word :=
  signedMessageHash (Commitment.batch id batch)

end TokenBridge
