import TokenBridge.Escape
import TokenBridge.Json.Basic

namespace TokenBridge.Json

def isBlank (c : Char) : Bool := c = ' ' || c = '\n' || c = '\r' || c = '\t'

def skip (input : List Char) : List Char := input.dropWhile isBlank

def isDigit (c : Char) : Bool := '0' ≤ c && c ≤ '9'

def natOfDigits (digits : List Char) : Nat :=
  digits.foldl (fun n c ↦ 10 * n + (c.toNat - 48)) 0

def digits (input : List Char) : List Char × List Char :=
  (input.takeWhile isDigit, input.dropWhile isDigit)

/-- A zero stands alone. -/
def integer? : List Char → Option (List Char × List Char)
  | '0' :: rest => some (['0'], rest)
  | input =>
    match digits input with
    | ([], _) => none
    | found => some found

def part (mark : List Char) (rest input : List Char) : List Char × List Char :=
  match digits rest with
  | ([], _) => ([], input)
  | (found, rest) => (mark ++ found, rest)

def fraction : List Char → List Char × List Char
  | '.' :: rest => part ['.'] rest ('.' :: rest)
  | input => ([], input)

def exponent : List Char → List Char × List Char
  | e :: rest =>
    if e = 'e' ∨ e = 'E' then
      match rest with
      | '+' :: rest => part [e, '+'] rest (e :: '+' :: rest)
      | '-' :: rest => part [e, '-'] rest (e :: '-' :: rest)
      | rest => part [e] rest (e :: rest)
    else ([], e :: rest)
  | [] => ([], [])

def numeral? (input : List Char) : Option (Json × List Char) :=
  let (sign, rest) := match input with
    | '-' :: rest => (['-'], rest)
    | _ => ([], input)
  match integer? rest with
  | none => none
  | some (whole, rest) =>
    let (decimals, rest) := fraction rest
    let (power, rest) := exponent rest
    match sign ++ decimals ++ power with
    | [] => some (nat (natOfDigits whole), rest)
    | _ => some (numeral (String.ofList (sign ++ whole ++ decimals ++ power)), rest)

inductive Piece where
  | char (c : Char)
  | unit (n : Nat)
deriving DecidableEq

def shorthand? (letter : Char) : Option Char :=
  if letter = '/' then some '/' else Escape.ofLetter? letter

def pieces? : List Char → Option (List Piece × List Char)
  | [] => none
  | '"' :: rest => some ([], rest)
  | '\\' :: 'u' :: a :: b :: c :: d :: rest => do
    let n ← Escape.hexValue? [a, b, c, d]
    let (found, rest) ← pieces? rest
    some (.unit n :: found, rest)
  | '\\' :: letter :: rest => do
    let c ← shorthand? letter
    let (found, rest) ← pieces? rest
    some (.char c :: found, rest)
  | c :: rest => do
    if c.toNat < 32 ∨ c = '\\' then none
    else
      let (found, rest) ← pieces? rest
      some (.char c :: found, rest)

def isHigh (n : Nat) : Bool := 0xd800 ≤ n && n < 0xdc00

def isLow (n : Nat) : Bool := 0xdc00 ≤ n && n < 0xe000

/-- Joins surrogates in pairs; there is no text if one stays alone. -/
def join? : List Piece → Option (List Char)
  | [] => some []
  | .char c :: rest => (join? rest).map (c :: ·)
  | .unit high :: .unit low :: rest =>
    if isHigh high && isLow low then
      (join? rest).map (Char.ofNat (0x10000 + 1024 * (high - 0xd800) + (low - 0xdc00)) :: ·)
    else if isHigh high || isLow high then none
    else (join? (.unit low :: rest)).map (Char.ofNat high :: ·)
  | .unit n :: rest =>
    if isHigh n || isLow n then none else (join? rest).map (Char.ofNat n :: ·)

def string? (input : List Char) : Option (Option String × List Char) :=
  (pieces? input).map fun (found, rest) ↦ ((join? found).map String.ofList, rest)

end TokenBridge.Json
