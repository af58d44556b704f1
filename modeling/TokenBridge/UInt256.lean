import TokenBridge.Hex

namespace TokenBridge

def UInt256.size : Nat :=
  0x10000000000000000000000000000000000000000000000000000000000000000

structure UInt256 where
  toNat : Nat
  toNat_lt : toNat < UInt256.size
deriving DecidableEq

namespace UInt256

@[ext] theorem ext {a b : UInt256} (h : a.toNat = b.toNat) : a = b := by
  cases a
  cases b
  simp_all

def ofNat? (n : Nat) : Option UInt256 := if h : n < size then some ⟨n, h⟩ else none

def zero : UInt256 := ⟨0, by decide⟩

instance : Inhabited UInt256 := ⟨zero⟩

def add? (a b : UInt256) : Option UInt256 := ofNat? (a.toNat + b.toNat)

def sub? (a b : UInt256) : Option UInt256 :=
  if b.toNat ≤ a.toNat then ofNat? (a.toNat - b.toNat) else none

/-- The sum of a list, unless some part of it does not fit. -/
def sum? (values : List UInt256) : Option UInt256 := values.foldlM add? zero

def ofUInt64 (n : UInt64) : UInt256 :=
  ⟨n.toNat, Nat.lt_of_lt_of_le n.toNat_lt (by decide)⟩

def toUInt64? (a : UInt256) : Option UInt64 :=
  if a.toNat < UInt64.size then some (UInt64.ofNat a.toNat) else none

def decimal (a : UInt256) : String := toString a.toNat

def hex (a : UInt256) : String := String.ofList ('0' :: 'x' :: Nat.toDigits 16 a.toNat)

end UInt256

def UInt256.toWord (a : UInt256) : Word := FixedBytes.ofNat 32 a.toNat

def Word.toUInt256 (w : Word) : UInt256 := ⟨w.toNat, w.toNat_lt⟩

inductive NumeralError where
  | badDigit (byte : UInt8)
  | tooLarge
deriving DecidableEq, Repr

def NumeralError.messages : NumeralError → List String
  | badDigit byte =>
    let shown := Char.ofNat byte.toNat
    [s!"invalid digit: {shown}"]
  | tooLarge =>
    let message := "the value is too large to fit the target type"
    [message, message]

namespace UInt256

def fit (n : Nat) : Except NumeralError UInt256 :=
  match ofNat? n with
  | some a => .ok a
  | none => .error .tooLarge

def digit? (radix : Nat) (b : UInt8) : Option Nat := (Hex.digit? b).filter (· < radix)

/-- Decimal digits are taken in groups of so many. -/
def groupLength : Nat := 19

/-- Reads decimal digits behind the value of the ones before them. That the value is too large shows
where a group ends; `left` more digits belong to the group of the first one. -/
def readDecimal (left value : Nat) : Bytes → Except NumeralError UInt256
  | [] => fit value
  | b :: rest =>
    match digit? 10 b with
    | none => .error (.badDigit b)
    | some d =>
      let value := 10 * value + d
      match left with
      | left + 1 => readDecimal left value rest
      | 0 => if value < size then readDecimal (groupLength - 1) value rest else .error .tooLarge

/-- Reads digits of which the lowest comes first, and counts `weight` for each of its units. The
`value` is that of the lower digits. -/
def readUpward (radix weight value : Nat) : Bytes → Except NumeralError UInt256
  | [] => fit value
  | b :: rest =>
    match digit? radix b with
    | none => .error (.badDigit b)
    | some d =>
      let value := value + d * weight
      if value < size then readUpward radix (radix * weight) value rest else .error .tooLarge

def splitRadix : Bytes → Nat × Bytes
  | 48 :: mark :: rest =>
    if mark = 120 ∨ mark = 88 then (16, rest)
    else if mark = 111 ∨ mark = 79 then (8, rest)
    else if mark = 98 ∨ mark = 66 then (2, rest)
    else (10, 48 :: mark :: rest)
  | bytes => (10, bytes)

/-- Reads a numeral, in which underscores may stand anywhere. No digits at all stand for zero. The
digits of a radix that a mark asks for are read from the last one on. -/
def ofText (text : String) : Except NumeralError UInt256 :=
  let (radix, digits) := splitRadix (Bytes.ofText text)
  let digits := digits.filter (· ≠ 95)
  if radix = 10 then readDecimal (groupLength - 1) 0 digits
  else readUpward radix 1 0 digits.reverse

end UInt256

end TokenBridge
