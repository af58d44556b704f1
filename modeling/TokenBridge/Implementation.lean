namespace TokenBridge

inductive EntryPoint where
  | start
  | deposit
  | rotate
  | submitBatch
  | probe
deriving DecidableEq, Repr

def EntryPoint.name : EntryPoint → String
  | start => "Initialize"
  | deposit => "SendToCosmos"
  | rotate => "UpdateValidatorSet"
  | submitBatch => "SubmitBatch"
  | probe => "UpgradeProbe"

def EntryPoint.all : List EntryPoint := [start, deposit, rotate, submitBatch, probe]

inductive Implementation where
  | v1
  | v2
deriving DecidableEq, Repr

namespace Implementation

def all : List Implementation := [v1, v2]

def name : Implementation → String
  | v1 => "V1"
  | v2 => "V2"

def number : Implementation → UInt64
  | v1 => 1
  | v2 => 2

def ofNumber? (number : UInt64) : Option Implementation := all.find? fun v ↦ v.number = number

def entryPoints : Implementation → List EntryPoint
  | v1 => [.start, .deposit, .rotate, .submitBatch]
  | v2 => [.start, .deposit, .rotate, .submitBatch, .probe]

def supports (v : Implementation) (entry : EntryPoint) : Bool := entry ∈ v.entryPoints

end Implementation

end TokenBridge
