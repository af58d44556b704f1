import TokenBridge.Borsh.Values
import TokenBridge.Bridge.Basic

namespace TokenBridge.Borsh.Format

def ledger : Format Ledger := uint64.via Ledger.mk (·.lastNonce)

def executor : Format Executor := (table address uint64).via Executor.mk (·.lastNonces)

def balances : Format Balances := (table (pair address address) uint256).via Balances.mk (·.table)

def gate : Format Gate :=
  (pair address implementation).via (fun (admin, implementation) ↦ { admin, implementation })
    fun g ↦ (g.admin, g.implementation)

def registry : Format Registry :=
  (pair checkpoint (pair validatorSet threshold)).via
    (fun (checkpoint, validators, threshold) ↦ { checkpoint, validators, threshold })
    fun r ↦ (r.checkpoint, r.validators, r.threshold)

def state : Format BridgeState :=
  (pair registry (pair ledger executor)).via
    (fun (registry, ledger, executor) ↦ { registry, ledger, executor })
    fun s ↦ (s.registry, s.ledger, s.executor)

end TokenBridge.Borsh.Format
