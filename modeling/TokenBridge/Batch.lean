import TokenBridge.DataError

namespace TokenBridge

/-- A payment of a batch; the fee goes to the relayer who submits it. -/
structure Payout where
  destination : Address
  amount : UInt256
  fee : UInt256
deriving DecidableEq

structure Batch where
  token : Address
  payouts : List Payout
  nonce : UInt64
deriving DecidableEq

namespace Batch

def ofPayouts (token : Address) (payouts : List Payout) (nonce : UInt64) : Except DataError Batch :=
  if payouts = [] then .error .emptyBatch else .ok ⟨token, payouts, nonce⟩

def ofParts (token : Address) (amounts : List UInt256) (destinations : List Address)
    (fees : List UInt256) (nonce : UInt64) : Except DataError Batch :=
  if amounts.length ≠ destinations.length ∨ amounts.length ≠ fees.length then
    .error (.batchArrayMismatch amounts.length destinations.length fees.length)
  else
    let payouts := List.zipWith (fun destination (amount, fee) ↦ Payout.mk destination amount fee)
      destinations (amounts.zip fees)
    ofPayouts token payouts nonce

def totalAmount (batch : Batch) : Except DataError UInt256 :=
  match UInt256.sum? (batch.payouts.map (·.amount)) with
  | some total => .ok total
  | none => .error .amountOverflow

def totalFee (batch : Batch) : Except DataError UInt256 :=
  match UInt256.sum? (batch.payouts.map (·.fee)) with
  | some total => .ok total
  | none => .error .amountOverflow

end Batch

end TokenBridge
