import TokenBridge.Checkpoint
import TokenBridge.Validator.Threshold

namespace TokenBridge

inductive GenesisError where
  | bridgeId (cause : DataError)
  | validators (cause : QuorumError)
  | zeroAdmin
deriving DecidableEq

namespace GenesisError

def message : GenesisError → String
  | bridgeId cause => s!"invalid bridge id: {cause.message}"
  | validators cause => s!"invalid validator set: {cause.message}"
  | zeroAdmin => "admin cannot be the zero address"

def messages (e : GenesisError) : List String :=
  e.message :: match e with
    | bridgeId cause => [cause.message]
    | validators cause => [cause.message]
    | zeroAdmin => []

end GenesisError

structure Genesis where
  bridgeId : BridgeId
  threshold : PowerThreshold
  admin : Address
  validators : ValidatorSet
deriving DecidableEq

/-- The same as an operator writes it down, before anything is checked. -/
structure GenesisDraft where
  bridgeId : String
  threshold : UInt32
  admin : Address
  validators : List Validator
deriving DecidableEq

def Genesis.checkpoint (g : Genesis) : Checkpoint := Checkpoint.compute g.bridgeId g.validators 0

def GenesisDraft.validate (d : GenesisDraft) : Except GenesisError Genesis :=
  match BridgeId.ofText d.bridgeId with
  | .error e => .error (.bridgeId e)
  | .ok bridgeId =>
    match PowerThreshold.ofBasisPoints d.threshold with
    | .error e => .error (.validators e)
    | .ok threshold =>
      if d.admin.isZero then .error .zeroAdmin
      else
        match ValidatorSet.ofList d.validators with
        | .error e => .error (.validators e)
        | .ok validators => .ok { bridgeId, threshold, admin := d.admin, validators }

end TokenBridge
