import TokenBridge.Abi
import TokenBridge.Account
import TokenBridge.Batch
import TokenBridge.Borsh.Format
import TokenBridge.Borsh.States
import TokenBridge.Borsh.Values
import TokenBridge.Bridge.Basic
import TokenBridge.Bridge.Call
import TokenBridge.BridgeError
import TokenBridge.BridgeId
import TokenBridge.Bytes
import TokenBridge.Checkpoint
import TokenBridge.CommandLine.Arguments
import TokenBridge.CommandLine.Invocation
import TokenBridge.CommandLine.Report
import TokenBridge.CommandLine.Run
import TokenBridge.CommandLine.Values
import TokenBridge.Commitment
import TokenBridge.Config.Basic
import TokenBridge.Config.Directory
import TokenBridge.Config.Reader
import TokenBridge.Curve.Ecdsa
import TokenBridge.Curve.Secp256k1
import TokenBridge.Custody.Balances
import TokenBridge.Custody.Basic
import TokenBridge.DataError
import TokenBridge.Decimal
import TokenBridge.Deposit
import TokenBridge.Destination
import TokenBridge.Escape
import TokenBridge.Event.Basic
import TokenBridge.Event.Kind
import TokenBridge.Event.Log
import TokenBridge.Executor
import TokenBridge.FixedBytes
import TokenBridge.Gate
import TokenBridge.Genesis
import TokenBridge.Hash.Keccak
import TokenBridge.Hash.Sha256
import TokenBridge.Hex
import TokenBridge.Implementation
import TokenBridge.Json.Basic
import TokenBridge.Json.Excess
import TokenBridge.Json.Format
import TokenBridge.Json.Parser
import TokenBridge.Json.Printer
import TokenBridge.Json.Scalar
import TokenBridge.Json.Shape
import TokenBridge.Json.Values
import TokenBridge.Ledger
import TokenBridge.Logging
import TokenBridge.Main
import TokenBridge.Proofs.Admission.Basic
import TokenBridge.Proofs.Admission.Borsh
import TokenBridge.Proofs.Admission.Json
import TokenBridge.Proofs.Batch.Totals
import TokenBridge.Proofs.Borsh.Canonical
import TokenBridge.Proofs.Borsh.Recovery
import TokenBridge.Proofs.Borsh.Tables
import TokenBridge.Proofs.Borsh.Values
import TokenBridge.Proofs.Bridge.Cells
import TokenBridge.Proofs.Bridge.Commutation
import TokenBridge.Proofs.Bridge.Deposits
import TokenBridge.Proofs.Bridge.Effects
import TokenBridge.Proofs.Bridge.EmptyBatch
import TokenBridge.Proofs.Bridge.Erasure
import TokenBridge.Proofs.Bridge.Escrow
import TokenBridge.Proofs.Bridge.Footprint
import TokenBridge.Proofs.Bridge.Founding
import TokenBridge.Proofs.Bridge.Genesis
import TokenBridge.Proofs.Bridge.Journal
import TokenBridge.Proofs.Bridge.Locality
import TokenBridge.Proofs.Bridge.Logs
import TokenBridge.Proofs.Bridge.Movements
import TokenBridge.Proofs.Bridge.Numbering
import TokenBridge.Proofs.Bridge.Pickup
import TokenBridge.Proofs.Bridge.Race
import TokenBridge.Proofs.Bridge.Replay
import TokenBridge.Proofs.Bridge.Run
import TokenBridge.Proofs.Bridge.Separation
import TokenBridge.Proofs.Bridge.Succession
import TokenBridge.Proofs.Bridge.Trust
import TokenBridge.Proofs.BridgeId
import TokenBridge.Proofs.CommandLine.Checkpoints
import TokenBridge.Proofs.CommandLine.Payouts
import TokenBridge.Proofs.CommandLine.Values
import TokenBridge.Proofs.Commitment.Abi
import TokenBridge.Proofs.Commitment.Binding
import TokenBridge.Proofs.Commitment.Layout
import TokenBridge.Proofs.Commitment.Raw
import TokenBridge.Proofs.Custody.Locality
import TokenBridge.Proofs.Custody.Transfers
import TokenBridge.Proofs.Destination
import TokenBridge.Proofs.Event.Fields
import TokenBridge.Proofs.Event.Log
import TokenBridge.Proofs.Event.Reading
import TokenBridge.Proofs.Executor.Interruption
import TokenBridge.Proofs.Executor.Payability
import TokenBridge.Proofs.Executor.Settlement
import TokenBridge.Proofs.Json.Values
import TokenBridge.Proofs.Registry.Consistency
import TokenBridge.Proofs.Registry.Intersection
import TokenBridge.Proofs.Registry.Stored
import TokenBridge.Proofs.Text.Ascii
import TokenBridge.Proofs.Text.Hex
import TokenBridge.Proofs.Text.Marks
import TokenBridge.Proofs.Text.Numeral
import TokenBridge.Proofs.Validator.Arrangement
import TokenBridge.Proofs.Validator.Construction
import TokenBridge.Proofs.Validator.Quorum
import TokenBridge.Proofs.Validator.Signing
import TokenBridge.Proofs.Validator.Verdict
import TokenBridge.Registry
import TokenBridge.Signature
import TokenBridge.Table
import TokenBridge.Toml.Document
import TokenBridge.Toml.Numeral
import TokenBridge.Toml.Parser
import TokenBridge.Toml.Token
import TokenBridge.Toml.Value
import TokenBridge.UInt256
import TokenBridge.Validator.Error
import TokenBridge.Validator.KeyRing
import TokenBridge.Validator.Set
import TokenBridge.Validator.Signatures
import TokenBridge.Validator.Threshold
import TokenBridge.Validator.Verification
