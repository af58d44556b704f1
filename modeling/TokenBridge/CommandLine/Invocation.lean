import TokenBridge.CommandLine.Arguments
import TokenBridge.Decimal

namespace TokenBridge.CommandLine

inductive Command where
  | checkpoint (config bridgeId : Option String) (validators : List String) (nonce : UInt64)
  | checkParams (path : String)
  | batchDigest (bridgeId token : String) (nonce : UInt64) (payouts : List String)
deriving DecidableEq, Repr

structure Invocation where
  verbose : Bool
  jsonLogs : Bool
  command : Command
deriving DecidableEq, Repr

def isUInt64 (text : String) : Bool := (Decimal.readUInt64 text).isOk

def Spec.tool : Spec where
  options := [.switch "--verbose" (some "-v"), .switch "--json-logs" none]
  positionals := 0
  commands := [.long "checkpoint", .long "check-params", .long "batch-digest"]

def Spec.checkpoint : Spec where
  options := [
    .text "--config" (some "-c") .once,
    .text "--bridge-id" (some "-i") .once,
    .text "--validator" (some "-V") .repeated,
    ⟨"--nonce", some "-n", .once, isUInt64⟩]
  positionals := 0
  commands := []

def Spec.checkParams : Spec where
  options := []
  positionals := 1
  commands := []

def Spec.batchDigest : Spec where
  options := [
    .text "--bridge-id" (some "-i") .once,
    .text "--token" (some "-t") .once,
    ⟨"--nonce", some "-n", .once, isUInt64⟩,
    .text "--tx" none .repeated]
  positionals := 0
  commands := []

def needed {α : Type} : Option α → Except Stop α
  | some a => .ok a
  | none => .error .misuse

def Found.uint64? (f : Found) (name : String) : Option UInt64 :=
  (f.value? name).bind fun text ↦ (Decimal.readUInt64 text).toOption

namespace Command

def ofCheckpointArgs (args : List String) : Except Stop Command := do
  let f ← Spec.checkpoint.parse args
  return checkpoint (f.value? "--config") (f.value? "--bridge-id") (f.values "--validator")
    ((f.uint64? "--nonce").getD 0)

def ofCheckParamsArgs (args : List String) : Except Stop Command := do
  let f ← Spec.checkParams.parse args
  return checkParams (← needed f.positionals.head?)

def ofBatchDigestArgs (args : List String) : Except Stop Command := do
  let f ← Spec.batchDigest.parse args
  let bridgeId ← needed (f.value? "--bridge-id")
  let token ← needed (f.value? "--token")
  let nonce ← needed (f.uint64? "--nonce")
  return batchDigest bridgeId token nonce (f.values "--tx")

def ofArgs (name : String) (args : List String) : Except Stop Command :=
  if name = "checkpoint" then ofCheckpointArgs args
  else if name = "check-params" then ofCheckParamsArgs args
  else if name = "batch-digest" then ofBatchDigestArgs args
  else .error .misuse

def configPath? : Command → Option String
  | checkpoint config _ _ _ => config
  | checkParams path => some path
  | batchDigest .. => none

end Command

def usageText : String :=
  "Usage: gantry-tool [-v] [--json-logs] <command> [<args>]\n\n" ++
  "Commands:\n" ++
  "  checkpoint [-c <config>] [-i <bridge-id>] [-V <address:power>...] [-n <nonce>]\n" ++
  "  check-params <path>\n" ++
  "  batch-digest -i <bridge-id> -t <token> -n <nonce> [--tx <destination:amount:fee>...]\n"

def Invocation.ofArgs (args : List String) : Except Stop Invocation := do
  let f ← Spec.tool.parse args
  let (name, args) ← needed f.command
  let command ← Command.ofArgs name args
  return { verbose := f.has "--verbose", jsonLogs := f.has "--json-logs", command }

end TokenBridge.CommandLine
