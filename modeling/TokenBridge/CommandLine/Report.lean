import TokenBridge.Commitment
import TokenBridge.Genesis
import TokenBridge.Json.Printer
import TokenBridge.Json.Values

namespace TokenBridge.CommandLine

inductive Report where
  | checkpoint (commitment : Word) (nonce : UInt64)
  | genesis (g : Genesis)
  | batch (id : BridgeId) (b : Batch) (amount fee : UInt256)
deriving DecidableEq

namespace Report

open Json (Format)

def member {α : Type} (name : String) (f : Format α) (a : α) : Option String × Json :=
  (some name, f.toJson a)

def toJson : Report → Json
  | checkpoint commitment nonce => .object [
      member "checkpoint" .word commitment,
      member "nonce" .uint64 nonce,
      member "signing_digest" .word (signedMessageHash commitment)]
  | genesis g => .object [
      member "admin" .address g.admin,
      member "bridge_id" .bridgeId g.bridgeId,
      (some "bridge_name", match g.bridgeId.name? with
        | some name => .text name
        | none => .null),
      member "checkpoint" .word g.checkpoint.commitment,
      member "power_threshold" .threshold g.threshold,
      member "signing_digest" .word g.checkpoint.signingDigest,
      member "total_power" .uint64 g.validators.totalPower,
      member "validators" .validatorSet g.validators]
  | batch id b amount fee => .object [
      member "batch_nonce" .uint64 b.nonce,
      member "commitment" .word (Commitment.batch id b),
      (some "preimage", .text (String.ofList (Hex.digits (Commitment.batchPreimage id b)))),
      member "signing_digest" .word (b.signingDigest id),
      member "token" .address b.token,
      member "total_amount" .uint256 amount,
      member "total_fee" .uint256 fee,
      (some "transactions", .nat b.payouts.length)]

def text (r : Report) : String := r.toJson.pretty ++ "\n"

end Report

end TokenBridge.CommandLine
