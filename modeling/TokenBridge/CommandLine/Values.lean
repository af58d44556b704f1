import TokenBridge.Batch
import TokenBridge.BridgeId
import TokenBridge.Config.Basic
import TokenBridge.Decimal

namespace TokenBridge.CommandLine

inductive Failure where
  | address (text : String) (cause : HexError)
  | bridgeId (text : String) (cause : DataError)
  | notValidator (text : String)
  | power (text : String) (cause : DecimalError)
  | notPayout (text : String)
  | amount (text : String) (cause : NumeralError)
  | fee (text : String) (cause : NumeralError)
  | noSource
  | twoSources
  | config (cause : ConfigError)
  | genesis (cause : GenesisError)
  | data (cause : DataError)
deriving DecidableEq

def Failure.messages : Failure → List String
  | address text cause => [s!"invalid address: {text}", cause.message]
  | bridgeId text cause => [s!"invalid bridge id: {text}", cause.message]
  | notValidator text => [s!"expected address:power, got {text}"]
  | power text cause => [s!"invalid power in {text}", cause.message]
  | notPayout text => [s!"expected destination:amount:fee, got {text}"]
  | amount text cause => s!"invalid amount in {text}" :: cause.messages
  | fee text cause => s!"invalid fee in {text}" :: cause.messages
  | noSource => ["either --config or --bridge-id is required"]
  | twoSources => ["--config cannot be combined with --bridge-id or --validator"]
  | config cause => cause.messages
  | genesis cause => cause.messages
  | data cause => [cause.message]

/-- The message, and a list of the causes that is numbered if it is longer than one. -/
def Failure.text (e : Failure) : String :=
  match e.messages with
  | [] => "ERROR\n\n"
  | [message] => s!"ERROR\n{message}\n"
  | [message, cause] => s!"ERROR\n{message}\n\nCaused by:\n    {cause}\n"
  | message :: causes =>
    let lines := causes.zipIdx.map fun (cause, i) ↦ s!"    {i}: {cause}\n"
    s!"ERROR\n{message}\n\nCaused by:\n" ++ String.join lines

def readAddress (text : String) : Except Failure Address :=
  (FixedBytes.ofHex 20 text).mapError (.address text)

def readBridgeId (text : String) : Except Failure BridgeId :=
  (BridgeId.ofText text).mapError (.bridgeId text)

def fields : List Char → List (List Char)
  | [] => [[]]
  | c :: rest =>
    if c = ':' then [] :: fields rest
    else
      match fields rest with
      | [] => [[c]]
      | part :: parts => (c :: part) :: parts

def readValidator (text : String) : Except Failure Validator := do
  match text.toList.dropWhile (· ≠ ':') with
  | [] => .error (.notValidator text)
  | _ :: power =>
    let power ← (Decimal.readUInt64 (String.ofList power)).mapError (.power text)
    let address ← readAddress (String.ofList (text.toList.takeWhile (· ≠ ':')))
    return { address, power }

def readPayout (text : String) : Except Failure Payout := do
  match fields text.toList with
  | [destination, amount, fee] =>
    let amount ← (UInt256.ofText (String.ofList amount)).mapError (.amount text)
    let fee ← (UInt256.ofText (String.ofList fee)).mapError (.fee text)
    let destination ← readAddress (String.ofList destination)
    return { destination, amount, fee }
  | _ => .error (.notPayout text)

end TokenBridge.CommandLine
