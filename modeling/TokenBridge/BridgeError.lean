import TokenBridge.Custody.Basic
import TokenBridge.DataError
import TokenBridge.Implementation
import TokenBridge.Validator.Error

namespace TokenBridge

inductive Inconsistency where
  | zeroBridgeId
  | thresholdOutOfRange (basisPoints : UInt32)
  | checkpointMismatch (commitment : Word) (nonce : UInt64)
  | totalPowerMismatch
deriving DecidableEq

def Inconsistency.message : Inconsistency → String
  | zeroBridgeId => "bridge id is zero"
  | thresholdOutOfRange basisPoints => s!"power threshold {basisPoints} out of range"
  | checkpointMismatch commitment nonce =>
    s!"checkpoint {commitment.toHex} does not match validator set at nonce {nonce}"
  | totalPowerMismatch => "total power does not equal the sum of validator powers"

inductive BridgeError where
  | notInitialized
  | alreadyInitialized
  | staleSetNonce (provided current : UInt64)
  | staleBatchNonce (token : Address) (provided last : UInt64)
  | zeroAmount
  | selfDeposit (account : Address)
  | zeroAdmin
  | nonceExhausted
  | unauthorized (caller : Address)
  | unsupportedEntryPoint (entry : EntryPoint) (version : Implementation)
  | inconsistent (cause : Inconsistency)
  | data (cause : DataError)
  | quorum (cause : QuorumError)
  | custody (cause : CustodyError)
deriving DecidableEq

inductive ErrorKind where
  | invalidInput
  | staleNonce
  | orderMismatch
  | invalidSignature
  | insufficientPower
  | invalidDestination
  | executionFailure
  | unauthorized
  | notInitialized
  | alreadyInitialized
  | unsupportedEntryPoint
deriving DecidableEq, Repr

def DataError.kind : DataError → ErrorKind
  | invalidDestination _ => .invalidDestination
  | _ => .invalidInput

def QuorumError.kind : QuorumError → ErrorKind
  | orderMismatch .. => .orderMismatch
  | invalidSignature _ | malformedSignature .. => .invalidSignature
  | insufficientPower .. => .insufficientPower
  | _ => .invalidInput

namespace BridgeError

def kind : BridgeError → ErrorKind
  | notInitialized => .notInitialized
  | alreadyInitialized => .alreadyInitialized
  | staleSetNonce .. | staleBatchNonce .. => .staleNonce
  | zeroAmount | selfDeposit _ | zeroAdmin | nonceExhausted | inconsistent _ => .invalidInput
  | unauthorized _ => .unauthorized
  | unsupportedEntryPoint .. => .unsupportedEntryPoint
  | data cause => cause.kind
  | quorum cause => cause.kind
  | custody _ => .executionFailure

def message : BridgeError → String
  | notInitialized => "bridge is not initialized"
  | alreadyInitialized => "bridge is already initialized"
  | staleSetNonce provided current =>
    s!"stale valset nonce: provided {provided}, current {current}"
  | staleBatchNonce token provided last =>
    s!"stale batch nonce for {token.checksummed}: provided {provided}, last executed {last}"
  | zeroAmount => "deposit amount must be non-zero"
  | selfDeposit account => s!"deposit sender {account.checksummed} is the bridge account"
  | zeroAdmin => "admin cannot be the zero address"
  | nonceExhausted => "event nonce exhausted"
  | unauthorized caller => s!"caller {caller.checksummed} is not the admin"
  | unsupportedEntryPoint entry version =>
    s!"entry point {entry.name} is not supported by {version.name}"
  | inconsistent cause => s!"invariant violated: {cause.message}"
  | data cause => cause.message
  | quorum cause => cause.message
  | custody cause => s!"execution failed: {cause.message}"

end BridgeError

end TokenBridge
