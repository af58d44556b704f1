import TokenBridge.Custody.Balances
import TokenBridge.Registry

namespace TokenBridge

structure Executor where
  lastNonces : Table Address UInt64
deriving DecidableEq

namespace Executor

def empty : Executor := ⟨.empty⟩

variable (x : Executor)

def lastNonce (token : Address) : UInt64 := (x.lastNonces.get? token).getD 0

def advance (batch : Batch) : Executor := ⟨x.lastNonces.insert batch.token batch.nonce⟩

end Executor

/-- What a batch pays out, with its fees, if there are any, to the relayer at the end. -/
def Batch.transfers (batch : Batch) (relayer : Address) (fee : UInt256) : List (Address × UInt256) :=
  batch.payouts.map (fun p ↦ (p.destination, p.amount))
    ++ if fee = .zero then [] else [(relayer, fee)]

namespace Executor

variable {C : Type} [Custody C] (x : Executor)

/-- Pays a batch that the registry's validators have signed. The nonce is taken before anything is
paid, and stays taken if a payment fails, as do the payments made by then. -/
def execute (registry : Registry) (batch : Batch) (signatures : SignatureSet) (custody : C)
    (custodian relayer : Address) : Except BridgeError Unit × Executor × C :=
  let last := x.lastNonce batch.token
  if batch.nonce ≤ last then (.error (.staleBatchNonce batch.token batch.nonce last), x, custody)
  else
    match registry.verify signatures (batch.signingDigest registry.bridgeId) with
    | .error e => (.error (.quorum e), x, custody)
    | .ok _ =>
      match batch.totalFee with
      | .error e => (.error (.data e), x, custody)
      | .ok fee =>
        match Custody.transferAll custody batch.token custodian (batch.transfers relayer fee) with
        | (.error e, custody) => (.error (.custody e), x.advance batch, custody)
        | (.ok (), custody) => (.ok (), x.advance batch, custody)

end Executor

end TokenBridge
