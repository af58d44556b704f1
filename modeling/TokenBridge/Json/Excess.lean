import TokenBridge.Json.Scalar

namespace TokenBridge.Json.Excess

/-- The text behind its first so many UTF-8 bytes, if a character starts there. -/
def afterBytes : Nat → List Char → Option (List Char)
  | 0, rest => some rest
  | _ + 1, [] => none
  | n + 1, c :: rest => if c.utf8Size ≤ n + 1 then afterBytes (n + 1 - c.utf8Size) rest else none

def afterWord : List Char → List Char → Option (List Char)
  | [], rest => some rest
  | _ :: _, [] => none
  | expected :: word, c :: rest =>
    if c = expected then afterWord word rest else afterBytes 1 (c :: rest)

/-- Behind the digits of an exponent, or behind the digit that takes it out of the 32-bit range
unless the numeral is small all the same. -/
def afterPower (small : Bool) (exponent : Nat) : List Char → List Char
  | [] => []
  | c :: rest =>
    if isDigit c then
      let exponent := 10 * exponent + (c.toNat - 48)
      if small || exponent ≤ Int32.maxValue.toInt.toNat then afterPower small exponent rest
      else rest
    else c :: rest

def afterSign : List Char → Bool × List Char
  | '+' :: rest => (false, rest)
  | '-' :: rest => (true, rest)
  | rest => (false, rest)

def isPower (c : Char) : Bool := c = 'e' || c = 'E'

def afterExponent (zero : Bool) (input : List Char) : Option (List Char) :=
  let (negative, rest) := afterSign input
  match rest with
  | c :: _ => if isDigit c then some (afterPower (zero || negative) 0 rest) else afterBytes 1 rest
  | [] => none

def afterWhole (zero : Bool) : List Char → Option (List Char)
  | '.' :: rest =>
    match digits rest with
    | (found@(_ :: _), e :: rest) =>
      if isPower e then afterExponent (zero && found.all (· = '0')) rest else some (e :: rest)
    | (_, rest) => some rest
  | e :: rest => if isPower e then afterExponent zero rest else some (e :: rest)
  | [] => some []

def afterNumeral (input : List Char) : Option (List Char) :=
  match integer? input with
  | none => afterBytes 1 input
  | some (['0'], c :: rest) => if isDigit c then none else afterWhole true (c :: rest)
  | some (_, rest) => afterWhole false rest

def afterString : List Char → Option (List Char)
  | [] => none
  | '"' :: rest => some rest
  | '\\' :: 'u' :: a :: b :: c :: d :: rest =>
    match Escape.hexValue? [a, b, c, d] with
    | none => afterBytes 4 (a :: b :: c :: d :: rest)
    | some n =>
      if isLow n then some rest
      else if isHigh n then
        match rest with
        | '\\' :: 'u' :: e :: f :: g :: h :: rest =>
          match Escape.hexValue? [e, f, g, h] with
          | none => afterBytes 4 (e :: f :: g :: h :: rest)
          | some low => if isLow low then afterString rest else some rest
        | '\\' :: 'u' :: rest => afterBytes 4 rest
        | '\\' :: rest => afterBytes 1 rest
        | rest => afterBytes 1 rest
      else afterString rest
  | '\\' :: 'u' :: rest => afterBytes 4 rest
  | '\\' :: letter :: rest =>
    if (shorthand? letter).isSome then afterString rest else afterBytes 1 (letter :: rest)
  | c :: rest => if c.toNat < 32 ∨ c = '\\' then some rest else afterString rest

def isByte (input : List Char) : Bool :=
  match integer? input with
  | none => false
  | some (found, rest) =>
    natOfDigits found < UInt8.size &&
      match rest with
      | c :: _ => c ≠ '.' && !isPower c
      | [] => true

/-- Where the attempt to read a byte ends, if there is none. -/
def behind? : List Char → Option (List Char)
  | [] => none
  | 'n' :: rest => afterWord ['u', 'l', 'l'] rest
  | 't' :: rest => afterWord ['r', 'u', 'e'] rest
  | 'f' :: rest => afterWord ['a', 'l', 's', 'e'] rest
  | '"' :: rest => afterString rest
  | '-' :: rest => afterNumeral rest
  | c :: rest =>
    if isByte (c :: rest) then none
    else if isDigit c then afterNumeral (c :: rest)
    else some (c :: rest)

end TokenBridge.Json.Excess
