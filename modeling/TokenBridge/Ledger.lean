import TokenBridge.BridgeError
import TokenBridge.Deposit

namespace TokenBridge

/-- Numbers deposits from one on, without gaps. -/
structure Ledger where
  lastNonce : UInt64
deriving DecidableEq

namespace Ledger

def empty : Ledger := ⟨0⟩

variable (l : Ledger)

def record (token sender : Address) (destination : Destination) (amount : UInt256) :
    Except BridgeError Deposit × Ledger :=
  if amount = .zero then (.error .zeroAmount, l)
  else if UInt64.size ≤ l.lastNonce.toNat + 1 then (.error .nonceExhausted, l)
  else
    let nonce := l.lastNonce + 1
    (.ok { token, sender, destination, amount, nonce }, ⟨nonce⟩)

end Ledger

end TokenBridge
