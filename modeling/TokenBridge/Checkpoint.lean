import TokenBridge.Commitment

namespace TokenBridge

structure Checkpoint where
  bridgeId : BridgeId
  nonce : UInt64
  commitment : Word
deriving DecidableEq

namespace Checkpoint

def compute (id : BridgeId) (vs : ValidatorSet) (nonce : UInt64) : Checkpoint :=
  ⟨id, nonce, Commitment.checkpoint id vs nonce⟩

def signingDigest (c : Checkpoint) : Word := signedMessageHash c.commitment

def isOf (c : Checkpoint) (vs : ValidatorSet) : Bool :=
  Commitment.checkpoint c.bridgeId vs c.nonce = c.commitment

end Checkpoint

end TokenBridge
