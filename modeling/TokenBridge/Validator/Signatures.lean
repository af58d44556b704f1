import TokenBridge.Validator.Set

namespace TokenBridge

structure Attestation where
  validator : Address
  signature : Signature
deriving DecidableEq

/-- One slot per validator, in the order of the set; a validator who abstains leaves it empty. -/
structure SignatureSet where
  slots : List (Option Attestation)
deriving DecidableEq

namespace SignatureSet

def abstaining (size : Nat) : SignatureSet := ⟨List.replicate size none⟩

def size (s : SignatureSet) : Nat := s.slots.length

def signedCount (s : SignatureSet) : Nat := s.slots.countP (·.isSome)

/-- Fills a slot, behind new empty ones if there are too few. -/
def insert (s : SignatureSet) (index : Nat) (a : Attestation) : SignatureSet :=
  ⟨(s.slots ++ List.replicate (index + 1 - s.slots.length) none).set index (some a)⟩

def place (vs : ValidatorSet) : SignatureSet → List Attestation → Except QuorumError SignatureSet
  | s, [] => .ok s
  | s, a :: rest =>
    match vs.positionOf? a.validator with
    | none => .error (.unknownSigner a.validator)
    | some index =>
      match s.slots[index]? with
      | some (some _) => .error (.duplicateSigner a.validator)
      | _ => place vs (s.insert index a) rest

def arrange (vs : ValidatorSet) (gathered : List Attestation) : Except QuorumError SignatureSet :=
  place vs (abstaining vs.size) gathered

end SignatureSet

end TokenBridge
