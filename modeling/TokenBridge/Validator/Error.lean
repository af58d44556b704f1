import TokenBridge.Signature

namespace TokenBridge

inductive QuorumError where
  | emptyValidatorSet
  | duplicateValidator (address : Address)
  | zeroAddress (index : Nat)
  | zeroPower (index : Nat)
  | powerOverflow
  | parallelArrayMismatch (addresses powers : Nat)
  | invalidThreshold (basisPoints : UInt32)
  | lengthMismatch (provided expected : Nat)
  | orderMismatch (index : Nat) (expected found : Address)
  | invalidSignature (index : Nat)
  | malformedSignature (index : Nat) (cause : RecoveryError)
  | insufficientPower (signed total : UInt64) (threshold : UInt32)
  | unknownSigner (address : Address)
  | duplicateSigner (address : Address)
deriving DecidableEq

def QuorumError.message : QuorumError → String
  | emptyValidatorSet => "validator set is empty"
  | duplicateValidator address => s!"duplicate validator: {address.checksummed}"
  | zeroAddress index => s!"validator at index {index} has the zero address"
  | zeroPower index => s!"validator at index {index} has zero power"
  | powerOverflow => "total validator power overflows"
  | parallelArrayMismatch addresses powers =>
    s!"parallel array mismatch: {addresses} addresses, {powers} powers"
  | invalidThreshold basisPoints => s!"invalid power threshold: {basisPoints} basis points"
  | lengthMismatch provided expected =>
    s!"signature count mismatch: provided {provided}, expected {expected}"
  | orderMismatch index expected found =>
    s!"signature at index {index} belongs to {found.checksummed}, expected {expected.checksummed}"
  | invalidSignature index => s!"invalid signature at index {index}"
  | malformedSignature index cause => s!"malformed signature at index {index}: {cause.message}"
  | insufficientPower signed total threshold =>
    s!"insufficient power: signed {signed} of {total}, threshold {threshold} bps"
  | unknownSigner address => s!"unknown signer: {address.checksummed}"
  | duplicateSigner address => s!"duplicate signer: {address.checksummed}"

end TokenBridge
