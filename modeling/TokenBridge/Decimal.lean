namespace TokenBridge

inductive DecimalError where
  | empty
  | badDigit
  | tooLarge
deriving DecidableEq, Repr

def DecimalError.message : DecimalError → String
  | empty => "cannot parse integer from empty string"
  | badDigit => "invalid digit found in string"
  | tooLarge => "number too large to fit in target type"

namespace Decimal

def digit? (c : Char) : Option Nat := if '0' ≤ c ∧ c ≤ '9' then some (c.toNat - 48) else none

/-- Reads digits behind the value of the ones before them, and stops where the value leaves the
64-bit range. -/
def readDigits (value : Nat) : List Char → Except DecimalError UInt64
  | [] => .ok (UInt64.ofNat value)
  | c :: rest =>
    match digit? c with
    | none => .error .badDigit
    | some d =>
      if 10 * value + d < UInt64.size then readDigits (10 * value + d) rest else .error .tooLarge

def readUInt64 (text : String) : Except DecimalError UInt64 :=
  match text.toList with
  | [] => .error .empty
  | ['+'] => .error .badDigit
  | '+' :: rest => readDigits 0 rest
  | digits => readDigits 0 digits

end Decimal

end TokenBridge
