import TokenBridge.Event.Kind
import TokenBridge.UInt256

namespace TokenBridge

inductive LogDefect where
  | topicCount
  | shortData
deriving DecidableEq, Repr

def LogDefect.message : LogDefect → String
  | topicCount => "topic list length mismatch"
  | shortData => "ABI decoding failed: buffer overrun while deserializing"

inductive DataError where
  | invalidAddressLength (index length : Nat)
  | invalidBridgeIdLength (length : Nat)
  | invalidBridgeIdHex (cause : HexError)
  | zeroBridgeId
  | validatorArrayMismatch (addresses powers : Nat)
  | batchArrayMismatch (amounts destinations fees : Nat)
  | invalidDestination (length : Nat)
  | emptyBatch
  | amountOverflow
  | unknownEvent (topic : Option Word)
  | malformedLog (kind : EventKind) (defect : LogDefect)
  | nonceOutOfRange (nonce : UInt256)
deriving DecidableEq

def DataError.message : DataError → String
  | invalidAddressLength index length => s!"invalid address length at index {index}: {length} bytes"
  | invalidBridgeIdLength length => s!"invalid bridge id length: {length} bytes (max 32)"
  | invalidBridgeIdHex cause => s!"invalid bridge id: {cause.message}"
  | zeroBridgeId => "bridge id must be non-zero"
  | validatorArrayMismatch addresses powers =>
    s!"address and power arrays differ: {addresses} addresses, {powers} powers"
  | batchArrayMismatch amounts destinations fees =>
    s!"batch arrays differ: {amounts} amounts, {destinations} destinations, {fees} fees"
  | invalidDestination length => s!"invalid destination length: {length} bytes"
  | emptyBatch => "batch has no transactions"
  | amountOverflow => "batch total overflows"
  | unknownEvent none => "unknown event signature: None"
  | unknownEvent (some topic) => s!"unknown event signature: Some({topic.toHex})"
  | malformedLog kind defect => s!"malformed {kind.signature} log: {defect.message}"
  | nonceOutOfRange nonce => s!"nonce out of range: {nonce.decimal}"

end TokenBridge
