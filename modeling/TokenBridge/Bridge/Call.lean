import TokenBridge.Bridge.Basic

namespace TokenBridge

inductive Call where
  | start (id : BridgeId) (threshold : UInt32) (addresses : List Address) (powers : List UInt64)
  | deposit (sender token : Address) (destination : Bytes) (amount : UInt256)
  | rotate (addresses : List Address) (powers : List UInt64) (nonce : UInt64)
    (signatures : SignatureSet)
  | submitBatch (relayer token : Address) (payouts : List Payout) (nonce : UInt64)
    (signatures : SignatureSet)
  | executeBatch (relayer : Address) (batch : Batch) (signatures : SignatureSet)
  | changeAdmin (caller new : Address)
  | upgrade (caller : Address) (version : Implementation)
deriving DecidableEq

inductive Answer where
  | checkpoint (c : Checkpoint)
  | deposit (record : Deposit)
  | done
deriving DecidableEq

namespace Bridge

variable {C : Type} [Custody C]

def answering {α : Type} (wrap : α → Answer) (outcome : Except BridgeError α × Bridge C) :
    Except BridgeError Answer × Bridge C :=
  (outcome.1.map wrap, outcome.2)

def call (b : Bridge C) : Call → Except BridgeError Answer × Bridge C
  | .start id threshold addresses powers =>
    answering .checkpoint (b.start id threshold addresses powers)
  | .deposit sender token destination amount =>
    answering .deposit (b.deposit sender token destination amount)
  | .rotate addresses powers nonce signatures =>
    answering .checkpoint (b.rotate addresses powers nonce signatures)
  | .submitBatch relayer token payouts nonce signatures =>
    answering (fun _ ↦ .done) (b.submitBatch relayer token payouts nonce signatures)
  | .executeBatch relayer batch signatures =>
    answering (fun _ ↦ .done) (b.executeBatch relayer batch signatures)
  | .changeAdmin caller new => answering (fun _ ↦ .done) (b.changeAdmin caller new)
  | .upgrade caller version => answering (fun _ ↦ .done) (b.upgrade caller version)

def run (b : Bridge C) : List Call → List (Except BridgeError Answer) × Bridge C
  | [] => ([], b)
  | c :: rest =>
    let (answer, b) := b.call c
    let (answers, b) := b.run rest
    (answer :: answers, b)

end Bridge

end TokenBridge
