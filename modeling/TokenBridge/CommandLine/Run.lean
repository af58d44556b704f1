import TokenBridge.CommandLine.Invocation
import TokenBridge.CommandLine.Report
import TokenBridge.CommandLine.Values
import TokenBridge.Config.Reader

namespace TokenBridge.CommandLine

abbrev Files := String → Except FileError String

def loadConfig (files : Files) (path : String) : Except Failure Config :=
  match files path with
  | .error cause => .error (.config (.unreadable path cause))
  | .ok text =>
    match Config.ofText? text with
    | none => .error (.config .malformed)
    | some config => .ok config

/-- Commits to the validators as they are given, even if no bridge would take them. -/
def rawCheckpoint (bridgeId : String) (validators : List Validator) (nonce : UInt64) :
    Except Failure Word := do
  let id ← readBridgeId bridgeId
  (Commitment.rawCheckpoint id.word.bytes (validators.map (·.address.bytes))
    (validators.map (·.power)) nonce).mapError .data

def checkpointReport (config : Option Config) (bridgeId : Option String) (validators : List String)
    (nonce : UInt64) : Except Failure Report :=
  match config with
  | some config =>
    if bridgeId.isSome ∨ validators ≠ [] then .error .twoSources
    else do
      let g ← config.bridge.validate.mapError .genesis
      return .checkpoint (Commitment.checkpoint g.bridgeId g.validators nonce) nonce
  | none =>
    match bridgeId with
    | none => .error .noSource
    | some bridgeId => do
      let validators ← validators.mapM readValidator
      let commitment ← rawCheckpoint bridgeId validators nonce
      return .checkpoint commitment nonce

def genesisReport (config : Config) : Except Failure Report :=
  (config.bridge.validate.mapError .genesis).map .genesis

def batchReport (bridgeId token : String) (nonce : UInt64) (payouts : List String) :
    Except Failure Report := do
  let id ← readBridgeId bridgeId
  let token ← readAddress token
  let payouts ← payouts.mapM readPayout
  let b ← (Batch.ofPayouts token payouts nonce).mapError .data
  let amount ← b.totalAmount.mapError .data
  let fee ← b.totalFee.mapError .data
  return .batch id b amount fee

namespace Invocation

variable (i : Invocation)

def logger (config : Option Config) : Logger :=
  let s := match config with
    | some config => config.logging
    | none => .none
  Logger.ofSettings "gantry-tool" "gantry-tool" (if i.verbose then .debug else .warn)
    { s with jsonFormat := if i.jsonLogs then some true else s.jsonFormat }

def run (files : Files) : Except Failure (Logger × Report) := do
  match i.command with
  | .checkpoint path bridgeId validators nonce =>
    let config ← path.mapM (loadConfig files)
    let report ← checkpointReport config bridgeId validators nonce
    return (i.logger config, report)
  | .checkParams path =>
    let config ← loadConfig files path
    let report ← genesisReport config
    return (i.logger (some config), report)
  | .batchDigest bridgeId token nonce payouts =>
    let report ← batchReport bridgeId token nonce payouts
    return (i.logger none, report)

end Invocation

end TokenBridge.CommandLine
