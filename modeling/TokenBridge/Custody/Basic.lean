import TokenBridge.Account
import TokenBridge.UInt256

namespace TokenBridge

inductive CustodyError where
  | insufficientBalance (token holder : Address) (available required : UInt256)
  | balanceOverflow (token holder : Address)
  | zeroRecipient (token : Address)
deriving DecidableEq

def CustodyError.message : CustodyError → String
  | insufficientBalance token holder available required =>
    let token := token.checksummed
    let holder := holder.checksummed
    s!"insufficient {token} balance for {holder}: available {available.decimal}, required {required.decimal}"
  | balanceOverflow token holder =>
    s!"{token.checksummed} balance overflow for {holder.checksummed}"
  | zeroRecipient token => s!"transfer of {token.checksummed} to the zero address"

/-- Token balances through which a bridge moves its funds. What a failed transfer leaves behind is
up to the custody. -/
class Custody (C : Type) where
  balance : C → (token holder : Address) → UInt256
  transfer : C → (token sender recipient : Address) → UInt256 → Except CustodyError Unit × C

namespace Custody

variable {C : Type} [Custody C]

def transferAll (custody : C) (token sender : Address) :
    List (Address × UInt256) → Except CustodyError Unit × C
  | [] => (.ok (), custody)
  | (recipient, amount) :: rest =>
    match transfer custody token sender recipient amount with
    | (.error e, custody) => (.error e, custody)
    | (.ok (), custody) => transferAll custody token sender rest

end Custody

end TokenBridge
