import TokenBridge.Config.Basic
import TokenBridge.Toml.Document

namespace TokenBridge.Config

open Toml (Value)

/-- The values of a record's fields, where they are given. In a table other keys may stand beside
them, but none of theirs twice; in an array their values stand in order, and only the last may be
missing. A date has none of them. -/
def fields? (names : List String) (least : Nat) : Value → Option (List (Option Value))
  | .table _ entries =>
    names.mapM fun name ↦
      match entries.filter (·.1 = name) with
      | [] => some none
      | [(_, v)] => some (some v)
      | _ => none
  | .array items =>
    if least ≤ items.length ∧ items.length ≤ names.length then
      some (items.map some ++ List.replicate (names.length - items.length) none)
    else none
  | .date => some (names.map fun _ ↦ none)
  | _ => none

def text? : Value → Option String
  | .string s => some s
  | _ => none

def boolean? : Value → Option Bool
  | .boolean b => some b
  | _ => none

def natural? (bound : Nat) : Value → Option Nat
  | .integer (.ofNat n) => if n < bound then some n else none
  | _ => none

def uint32? (v : Value) : Option UInt32 := (natural? UInt32.size v).map UInt32.ofNat

def uint64? (v : Value) : Option UInt64 := (natural? UInt64.size v).map UInt64.ofNat

def byte? (v : Value) : Option UInt8 := (natural? UInt8.size v).map UInt8.ofNat

/-- Hex digits, or the bytes one by one. One value may stand behind the bytes if it is no byte. -/
def address? : Value → Option Address
  | .string s => (FixedBytes.ofHex 20 s).toOption
  | .array items => do
    let bytes ← (items.take 20).mapM byte?
    match items.drop 20 with
    | [] => FixedBytes.ofBytes? bytes
    | [v] => if (byte? v).isSome then none else FixedBytes.ofBytes? bytes
    | _ => none
  | _ => none

def list? {α : Type} (read : Value → Option α) : Value → Option (List α)
  | .array items => items.mapM read
  | _ => none

def optional? {α : Type} (read : Value → Option α) : Option Value → Option (Option α)
  | none => some none
  | some v => (read v).map some

def validator? (v : Value) : Option Validator := do
  match ← fields? ["address", "power"] 2 v with
  | [some address, some power] => return ⟨← address? address, ← uint64? power⟩
  | _ => none

def draft? (v : Value) : Option GenesisDraft := do
  match ← fields? ["bridge_id", "power_threshold", "admin", "validators"] 3 v with
  | [some bridgeId, threshold, some admin, validators] =>
    let bridgeId ← text? bridgeId
    let threshold ← optional? uint32? threshold
    let admin ← address? admin
    let validators ← optional? (list? validator?) validators
    return {
      bridgeId
      threshold := threshold.getD PowerThreshold.default.basisPoints
      admin
      validators := validators.getD [] }
  | _ => none

def logSettings? (v : Value) : Option LogSettings := do
  match ← fields? ["service_label", "log_dir", "log_file_prefix", "json_format"] 4 v with
  | [serviceLabel, directory, filePrefix, jsonFormat] =>
    return {
      serviceLabel := ← optional? text? serviceLabel
      directory := ← optional? text? directory
      filePrefix := ← optional? text? filePrefix
      jsonFormat := ← optional? boolean? jsonFormat }
  | _ => none

def ofText? (text : String) : Option Config := do
  let entries ← Toml.Document.ofText? text
  match ← fields? ["bridge", "logging"] 2 (.table false entries) with
  | [some bridge, logging] =>
    let bridge ← draft? bridge
    let logging ← optional? logSettings? logging
    return { bridge, logging := logging.getD .none }
  | _ => none

end TokenBridge.Config
