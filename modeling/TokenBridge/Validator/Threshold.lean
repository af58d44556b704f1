import TokenBridge.Validator.Error

namespace TokenBridge

/-- The share of the total power, in basis points, that authorizes an action. -/
structure PowerThreshold where
  basisPoints : UInt32
  pos : 0 < basisPoints.toNat
  le_denominator : basisPoints.toNat ≤ 10000
deriving DecidableEq

namespace PowerThreshold

def denominator : Nat := 10000

def ofBasisPoints (basisPoints : UInt32) : Except QuorumError PowerThreshold :=
  if h : 0 < basisPoints.toNat ∧ basisPoints.toNat ≤ 10000 then .ok ⟨basisPoints, h.1, h.2⟩
  else .error (.invalidThreshold basisPoints)

/-- Two thirds, rounded down to a basis point. -/
def default : PowerThreshold := ⟨6666, by decide, by decide⟩

instance : Inhabited PowerThreshold := ⟨default⟩

/-- Compares products, so that nothing is rounded in favour of the signers. -/
def isMet (t : PowerThreshold) (signed total : UInt64) : Bool :=
  total.toNat * t.basisPoints.toNat ≤ signed.toNat * denominator

end PowerThreshold

end TokenBridge
