import TokenBridge.Toml.Token
import TokenBridge.Toml.Value

namespace TokenBridge.Toml.Numeral

def isDigit (radix : Nat) (c : Char) : Bool :=
  match Escape.hexDigit? c with
  | some d => d < radix
  | none => false

def wellSpaced : List Char → Bool
  | [] => false
  | '_' :: _ => false
  | [_] => true
  | _ :: '_' :: rest => wellSpaced rest
  | _ :: rest => wellSpaced rest

def digits? (radix : Nat) (s : List Char) : Option (List Char × List Char) :=
  let belongs (c : Char) : Bool := isDigit radix c || c = '_'
  let run := s.takeWhile belongs
  if wellSpaced run then some (run.filter (· ≠ '_'), s.dropWhile belongs) else none

def value (radix : Nat) (digits : List Char) : Nat :=
  digits.foldl (fun n c ↦ radix * n + (Escape.hexDigit? c).getD 0) 0

def splitSign : List Char → Bool × List Char
  | '-' :: rest => (true, rest)
  | s => (false, s)

def whole? (s : List Char) : Option (Bool × List Char × List Char) :=
  let (negative, s) := splitSign s
  match digits? 10 s with
  | some (found, rest) =>
    if found.head? = some '0' ∧ 1 < found.length then none else some (negative, found, rest)
  | none => none

def ofInt? (n : Int) : Option Value :=
  if Int64.minValue.toInt ≤ n ∧ n ≤ Int64.maxValue.toInt then some (.integer n) else none

def marked? (radix : Nat) (s : List Char) : Option Value :=
  match digits? radix s with
  | some (found, []) => ofInt? (value radix found)
  | _ => none

def decimal? (s : List Char) : Option Value :=
  match whole? s with
  | some (negative, found, []) =>
    let n : Int := value 10 found
    ofInt? (if negative then -n else n)
  | _ => none

/-- The least number that is rounded to infinity in double precision. -/
def overflow : Nat := 1 <<< 1024 - 1 <<< 970

/-- Whether the number with these digits, times a power of ten, is rounded to a finite one. The
number of digits decides unless it is close to that of the limit. -/
def isFinite (digits : List Char) (exponent : Int) : Bool :=
  let n := value 10 digits
  let size := (Nat.toDigits 10 n).length + exponent
  if n = 0 ∨ size ≤ 300 then true
  else if 400 < size then false
  else if 0 ≤ exponent then n * Nat.pow 10 exponent.toNat < overflow
  else n < overflow * Nat.pow 10 (-exponent).toNat

def float? (digits : List Char) (exponent : Int) (rest : List Token) :
    Option (Value × List Token) :=
  if isFinite digits exponent then some (.float, rest) else none

def power? (signed : Bool) (s : List Char) : Option Int :=
  let (negative, s) := if signed then splitSign s else (false, s)
  match digits? 10 s with
  | some (found, []) =>
    let n : Int := value 10 found
    some (if negative then -n else n)
  | _ => none

/-- Reads a number with a point or an exponent. A plus sign in front of the exponent parts it from
the word before. -/
def scientific? (s : List Char) (decimals : Option (List Char)) (rest : List Token) :
    Option (Value × List Token) := do
  let (_, whole, tail) ← whole? s
  let (fraction, tail) ← match decimals with
    | none => some ([], tail)
    | some decimals => if tail = [] then digits? 10 decimals else none
  let shift : Int := fraction.length
  match tail with
  | [] => float? (whole ++ fraction) (-shift) rest
  | e :: tail =>
    if e = 'e' ∨ e = 'E' then
      match tail, rest with
      | [], .mark '+' :: .word s :: rest => do
        let power ← power? false s
        float? (whole ++ fraction) (power - shift) rest
      | [], _ => none
      | tail, rest => do
        let power ← power? true tail
        float? (whole ++ fraction) (power - shift) rest
    else none

def number? (s : List Char) (rest : List Token) : Option (Value × List Token) :=
  let alone (v : Option Value) : Option (Value × List Token) := v.map fun v ↦ (v, rest)
  match s with
  | '0' :: 'x' :: s => alone (marked? 16 s)
  | '0' :: 'o' :: s => alone (marked? 8 s)
  | '0' :: 'b' :: s => alone (marked? 2 s)
  | s =>
    if 'e' ∈ s ∨ 'E' ∈ s then scientific? s none rest
    else
      match rest with
      | .mark '.' :: .word decimals :: rest => scientific? s (some decimals) rest
      | .mark '.' :: _ => none
      | rest =>
        if (splitSign s).2 ∈ [['i', 'n', 'f'], ['n', 'a', 'n']] then some (.float, rest)
        else alone (decimal? s)

/-- Words with a hyphen that is no sign, or with a letter T, belong to dates. -/
def startsDate (s : List Char) : Bool :=
  'T' ∈ s || 't' ∈ s ||
    ('-' ∈ s.tail && ('e', '-') ∉ s.zip s.tail && ('E', '-') ∉ s.zip s.tail)

def follow? (c : Char) : List Token → Option (List Token)
  | .mark c' :: rest =>
    if c' = c then
      match rest with
      | .word _ :: rest => some rest
      | _ => none
    else some (.mark c' :: rest)
  | rest => some rest

def clock? : List Token → Option (List Token)
  | .word _ :: .mark ':' :: .word _ :: rest => do
    let rest ← follow? '.' rest
    let rest ← follow? '+' rest
    follow? ':' rest
  | _ => none

/-- Reads what belongs to a date behind its first word. Its parts may be any words. -/
def date? (inClock : Bool) (rest : List Token) : Option (List Token) :=
  let rest := match rest with
    | .gap [' '] :: .word _ :: rest => rest
    | rest => rest
  if inClock then clock? rest
  else
    match rest with
    | .mark ':' :: rest => clock? rest
    | rest => some rest

def numberOrDate? (s : List Char) (rest : List Token) : Option (Value × List Token) :=
  if startsDate s then (date? false rest).map fun rest ↦ (.date, rest)
  else
    match rest with
    | .mark ':' :: rest => (date? true rest).map fun rest ↦ (.date, rest)
    | rest => number? s rest

def word? (s : List Char) (rest : List Token) : Option (Value × List Token) :=
  if s = ['t', 'r', 'u', 'e'] then some (.boolean true, rest)
  else if s = ['f', 'a', 'l', 's', 'e'] then some (.boolean false, rest)
  else
    match s with
    | '-' :: _ => numberOrDate? s rest
    | c :: _ =>
      if isDigit 10 c || s = ['i', 'n', 'f'] || s = ['n', 'a', 'n'] then numberOrDate? s rest
      else none
    | [] => none

end TokenBridge.Toml.Numeral
