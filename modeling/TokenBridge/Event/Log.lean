import TokenBridge.Abi
import TokenBridge.Event.Basic

namespace TokenBridge

/-- An event as the chain stores it: indexed fields as topics, behind the topic of the kind, and
the others as data. -/
structure EventLog where
  topics : List Word
  data : Bytes
deriving DecidableEq

namespace Event

def indexedWords : Event → List Word
  | deposit r => [r.token.toWord, r.sender.toWord, r.destination.toWord]
  | validatorSetUpdated _ nonce => [Abi.wordOfNat nonce.toNat]
  | batchExecuted token nonce => [Abi.wordOfNat nonce.toNat, token.toWord]
  | adminChanged _ _ => []
  | upgraded version => [Abi.wordOfNat version.toNat]

def dataWords : Event → List Word
  | deposit r => [r.amount.toWord, Abi.wordOfNat r.nonce.toNat]
  | validatorSetUpdated checkpoint _ => [checkpoint]
  | batchExecuted _ _ => []
  | adminChanged previous new => [previous.toWord, new.toWord]
  | upgraded _ => []

def toLog (e : Event) : EventLog where
  topics := e.kind.topic :: e.indexedWords
  data := e.dataWords.flatMap (·.bytes)

end Event

namespace EventKind

def indexedCount : EventKind → Nat
  | deposit => 3
  | batchExecuted => 2
  | validatorSetUpdated | upgraded => 1
  | adminChanged => 0

def dataCount : EventKind → Nat
  | deposit | adminChanged => 2
  | validatorSetUpdated => 1
  | batchExecuted | upgraded => 0

/-- The words of a log of this kind. Data behind the last field is left unread. -/
def fields (kind : EventKind) (indexed : List Word) (data : Bytes) : Except DataError (List Word) :=
  if indexed.length ≠ kind.indexedCount then .error (.malformedLog kind .topicCount)
  else
    match Abi.readWords? kind.dataCount data with
    | none => .error (.malformedLog kind .shortData)
    | some words => .ok (indexed ++ words)

end EventKind

namespace Event

def readNonce (w : Word) : Except DataError UInt64 :=
  match w.toUInt256.toUInt64? with
  | some nonce => .ok nonce
  | none => .error (.nonceOutOfRange w.toUInt256)

/-- Reads the fields of a log. Of addresses and versions only the low bytes count; nonces and
destinations are checked. -/
def ofFields (kind : EventKind) (fields : List Word) : Except DataError Event :=
  match kind, fields with
  | .deposit, [token, sender, destination, amount, nonce] => do
    let destination ← Destination.ofWord destination
    let nonce ← readNonce nonce
    .ok (deposit ⟨token.toAddress, sender.toAddress, destination, amount.toUInt256, nonce⟩)
  | .validatorSetUpdated, [nonce, checkpoint] => do
    let nonce ← readNonce nonce
    .ok (validatorSetUpdated checkpoint nonce)
  | .batchExecuted, [nonce, token] => do
    let nonce ← readNonce nonce
    .ok (batchExecuted token.toAddress nonce)
  | .adminChanged, [previous, new] => .ok (adminChanged previous.toAddress new.toAddress)
  | .upgraded, [version] => .ok (upgraded (UInt64.ofNat version.toNat))
  | kind, _ => .error (.malformedLog kind .topicCount)

def ofLog (log : EventLog) : Except DataError Event :=
  match log.topics with
  | [] => .error (.unknownEvent none)
  | topic :: indexed =>
    match EventKind.ofTopic? topic with
    | none => .error (.unknownEvent (some topic))
    | some kind => do
      let fields ← kind.fields indexed log.data
      ofFields kind fields

def ofLogs (logs : List EventLog) : Except DataError (List Event) := logs.mapM ofLog

end Event

end TokenBridge
