import TokenBridge.Hash.Keccak

namespace TokenBridge

inductive EventKind where
  | deposit
  | validatorSetUpdated
  | batchExecuted
  | adminChanged
  | upgraded
deriving DecidableEq, Repr

namespace EventKind

def all : List EventKind := [deposit, validatorSetUpdated, batchExecuted, adminChanged, upgraded]

def signature : EventKind → String
  | deposit => "SendToCosmosEvent(address,address,bytes32,uint256,uint256)"
  | validatorSetUpdated => "ValsetUpdatedEvent(uint256,bytes32)"
  | batchExecuted => "TransactionBatchExecutedEvent(uint256,address)"
  | adminChanged => "AdminChanged(address,address)"
  | upgraded => "Upgraded(uint64)"

def topic (kind : EventKind) : Word := keccak256 (Bytes.ofText kind.signature)

def ofTopic? (topic : Word) : Option EventKind := all.find? fun kind ↦ kind.topic = topic

end EventKind

end TokenBridge
