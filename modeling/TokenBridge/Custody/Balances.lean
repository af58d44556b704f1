import TokenBridge.Custody.Basic
import TokenBridge.Table

namespace TokenBridge

structure Balances where
  table : Table (Address × Address) UInt256
deriving DecidableEq

namespace Balances

def empty : Balances := ⟨.empty⟩

instance : Inhabited Balances := ⟨empty⟩

variable (b : Balances)

def balance (token holder : Address) : UInt256 := (b.table.get? (token, holder)).getD .zero

def set (token holder : Address) (amount : UInt256) : Balances :=
  ⟨b.table.insert (token, holder) amount⟩

/-- Gives a holder who has no entry one of zero. -/
def opened (token holder : Address) : Balances := b.set token holder (b.balance token holder)

def mint (token holder : Address) (amount : UInt256) : Except CustodyError Unit × Balances :=
  let opened := b.opened token holder
  match (opened.balance token holder).add? amount with
  | none => (.error (.balanceOverflow token holder), opened)
  | some sum => (.ok (), opened.set token holder sum)

/-- A transfer to oneself needs the funds and moves nothing. -/
def transfer (token sender recipient : Address) (amount : UInt256) :
    Except CustodyError Unit × Balances :=
  if recipient.isZero then (.error (.zeroRecipient token), b)
  else
    let available := b.balance token sender
    match available.sub? amount with
    | none => (.error (.insufficientBalance token sender available amount), b)
    | some remaining =>
      if sender = recipient then (.ok (), b)
      else
        match (b.balance token recipient).add? amount with
        | none => (.error (.balanceOverflow token recipient), b)
        | some credited =>
          (.ok (), (b.set token sender remaining).set token recipient credited)

instance : Custody Balances where
  balance := balance
  transfer := transfer

end Balances

end TokenBridge
