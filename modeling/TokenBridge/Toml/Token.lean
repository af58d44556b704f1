import TokenBridge.Escape

namespace TokenBridge.Toml

inductive Token where
  | newline
  /-- Blanks on a line. -/
  | gap (blanks : List Char)
  /-- A bare key, a number, or a part of a number or date. -/
  | word (letters : List Char)
  | string (text : List Char) (multiline : Bool)
  /-- Punctuation. -/
  | mark (c : Char)
deriving DecidableEq

namespace Token

def joinLineEnds : List Char → List Char
  | '\r' :: '\n' :: rest => '\n' :: joinLineEnds rest
  | c :: rest => c :: joinLineEnds rest
  | [] => []

def isBlank (c : Char) : Bool := c = ' ' || c = '\t'

def isMark (c : Char) : Bool := c ∈ ['=', '.', ',', ':', '+', '{', '}', '[', ']']

def isLetter (c : Char) : Bool :=
  ('a' ≤ c && c ≤ 'z') || ('A' ≤ c && c ≤ 'Z') || ('0' ≤ c && c ≤ '9') || c = '-' || c = '_'

def isCommentChar (c : Char) : Bool := c = '\t' || 32 ≤ c.toNat

def isStringChar (c : Char) : Bool := (c = '\t' || 32 ≤ c.toNat) && c ≠ '\x7f'

/-- What ends a string of several lines: three quotes. Up to two more in front of them are the last
characters of its text, and are given with what stands behind. -/
def closing? (quote : Char) : List Char → Option (List Char × List Char)
  | a :: b :: c :: rest =>
    if a = quote ∧ b = quote ∧ c = quote then
      match rest with
      | d :: e :: rest =>
        if d = quote ∧ e = quote then some ([quote, quote], rest)
        else if d = quote then some ([quote], e :: rest)
        else some ([], d :: e :: rest)
      | [d] => if d = quote then some ([quote], []) else some ([], [d])
      | [] => some ([], [])
    else none
  | _ => none

def ending? (quote : Char) (multiline : Bool) (input : List Char) :
    Option (List Char × List Char) :=
  if multiline then closing? quote input
  else
    match input with
    | c :: rest => if c = quote then some ([], rest) else none
    | [] => none

def literal? (multiline : Bool) : List Char → Option (List Char × List Char)
  | [] => none
  | c :: rest =>
    match ending? '\'' multiline (c :: rest) with
    | some found => some found
    | none =>
      if isStringChar c || (multiline && c = '\n') then
        (literal? multiline rest).map fun (text, rest) ↦ (c :: text, rest)
      else none

def scalar? (digits : List Char) : Option Char := do
  let n ← Escape.hexValue? digits
  if n.isValidChar then some (Char.ofNat n) else none

/-- Where in a string a reader stands: in its text, behind a backslash that ends a line, on this
line, or behind the line end. -/
inductive Place where
  | inText
  | inLine
  | betweenLines
deriving DecidableEq

/-- Reads a string with escapes. A backslash at the end of a line leaves out the line end and the
blanks and line ends behind it. -/
def basic? (multiline : Bool) : Place → List Char → Option (List Char × List Char)
  | _, [] => none
  | .inLine, c :: rest =>
    if isBlank c then basic? multiline .inLine rest
    else if c = '\n' then basic? multiline .betweenLines rest
    else none
  | place, c :: rest =>
    if place = .betweenLines ∧ (isBlank c ∨ c = '\n') then basic? multiline .betweenLines rest
    else
      match ending? '"' multiline (c :: rest) with
      | some found => some found
      | none =>
        if c = '\\' then
          match rest with
          | 'u' :: d₁ :: d₂ :: d₃ :: d₄ :: rest => do
            let c ← scalar? [d₁, d₂, d₃, d₄]
            (basic? multiline .inText rest).map fun (text, rest) ↦ (c :: text, rest)
          | 'U' :: d₁ :: d₂ :: d₃ :: d₄ :: d₅ :: d₆ :: d₇ :: d₈ :: rest => do
            let c ← scalar? [d₁, d₂, d₃, d₄, d₅, d₆, d₇, d₈]
            (basic? multiline .inText rest).map fun (text, rest) ↦ (c :: text, rest)
          | letter :: rest =>
            match Escape.ofLetter? letter with
            | some c => (basic? multiline .inText rest).map fun (text, rest) ↦ (c :: text, rest)
            | none =>
              if multiline && isBlank letter then basic? multiline .inLine rest
              else if multiline && letter = '\n' then basic? multiline .betweenLines rest
              else none
          | [] => none
        else if isStringChar c || (multiline && c = '\n') then
          (basic? multiline .inText rest).map fun (text, rest) ↦ (c :: text, rest)
        else none

/-- A line end right behind the opening quotes does not count. -/
def dropLineEnd : List Char → List Char
  | '\n' :: rest => rest
  | input => input

def string? (quote : Char) (read : Bool → List Char → Option (List Char × List Char))
    (input : List Char) : Option (Token × List Char) :=
  let short (multiline : Bool) (found : List Char × List Char) : Token × List Char :=
    (string found.1 multiline, found.2)
  match input with
  | a :: b :: rest =>
    if a = quote ∧ b = quote then (read true (dropLineEnd rest)).map (short true)
    else if a = quote then some (string [] false, b :: rest)
    else (read false (a :: b :: rest)).map (short false)
  | [a] => if a = quote then some (string [] false, []) else none
  | [] => none

def scan? : Nat → List Char → Option (List Token)
  | _, [] => some []
  | 0, _ :: _ => none
  | fuel + 1, c :: rest =>
    if c = '\n' then (scan? fuel rest).map (newline :: ·)
    else if isBlank c then
      (scan? fuel (rest.dropWhile isBlank)).map (gap (c :: rest.takeWhile isBlank) :: ·)
    else if c = '#' then scan? fuel (rest.dropWhile isCommentChar)
    else if c = '\'' then do
      let (token, rest) ← string? '\'' literal? rest
      (scan? fuel rest).map (token :: ·)
    else if c = '"' then do
      let (token, rest) ← string? '"' (fun multiline ↦ basic? multiline .inText) rest
      (scan? fuel rest).map (token :: ·)
    else if isMark c then (scan? fuel rest).map (mark c :: ·)
    else if isLetter c then
      (scan? fuel (rest.dropWhile isLetter)).map (word (c :: rest.takeWhile isLetter) :: ·)
    else none

def dropByteOrderMark : List Char → List Char
  | '\ufeff' :: rest => rest
  | input => input

def ofText? (text : String) : Option (List Token) :=
  let input := joinLineEnds (dropByteOrderMark text.toList)
  scan? input.length input

end Token

end TokenBridge.Toml
