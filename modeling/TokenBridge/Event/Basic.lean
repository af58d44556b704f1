import TokenBridge.Deposit

namespace TokenBridge

/-- What a successful call of the bridge leaves in its journal. The type of what is told of a
deposit is left open for formats, which read it before it is checked. -/
inductive Event (δ : Type := Deposit) where
  | deposit (record : δ)
  | validatorSetUpdated (checkpoint : Word) (nonce : UInt64)
  | batchExecuted (token : Address) (nonce : UInt64)
  | adminChanged (previous new : Address)
  | upgraded (version : UInt64)
deriving DecidableEq

namespace Event

def kind : Event → EventKind
  | deposit .. => .deposit
  | validatorSetUpdated .. => .validatorSetUpdated
  | batchExecuted .. => .batchExecuted
  | adminChanged .. => .adminChanged
  | upgraded .. => .upgraded

def depositNonce? : Event → Option UInt64
  | deposit record => some record.nonce
  | _ => none

def depositsAfter (lastSeen : UInt64) (events : List Event) : List Deposit :=
  events.filterMap fun
    | deposit record => if lastSeen < record.nonce then some record else none
    | _ => none

end Event

end TokenBridge
