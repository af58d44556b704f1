import TokenBridge.Table
import TokenBridge.UInt256

namespace TokenBridge.Borsh

inductive Error where
  | shortBlock
  | shortInput
  | leftOver
  | badTag (tag : UInt8)
  | badOption (tag : UInt8)
  | rejected (reason : String)
deriving DecidableEq, Repr

def Error.message : Error → String
  | shortBlock => "failed to fill whole buffer"
  | shortInput => "Unexpected length of input"
  | leftOver => "Not all bytes read"
  | badTag tag => s!"Unexpected variant tag: {tag}"
  | badOption tag => s!"Invalid Option representation: {tag}. The first byte must be 0 or 1"
  | rejected reason => reason

/-- How values of a type are written, and how one is read from the front of the input, with what
is left of it. -/
structure Format (α : Type) where
  encode : α → Bytes
  decode : Bytes → Except Error (α × Bytes)

namespace Format

variable {α β κ ν : Type}

def read (f : Format α) (input : Bytes) : Except Error α :=
  match f.decode input with
  | .error e => .error e
  | .ok (a, []) => .ok a
  | .ok (_, _ :: _) => .error .leftOver

def take? : (count : Nat) → Bytes → Option (Bytes × Bytes)
  | 0, input => some ([], input)
  | _ + 1, [] => none
  | count + 1, b :: rest => (take? count rest).map fun (front, rest) ↦ (b :: front, rest)

theorem length_take? {count : Nat} {input front rest : Bytes}
    (h : take? count input = some (front, rest)) : front.length = count := by
  induction count generalizing input front with
  | zero =>
    simp only [take?, Option.some.injEq, Prod.mk.injEq] at h
    simp [← h.1]
  | succ count ih =>
    cases input with
    | nil => simp [take?] at h
    | cons b input =>
      simp only [take?, Option.map_eq_some_iff, Prod.mk.injEq, Prod.exists] at h
      obtain ⟨front', rest', h', rfl, rfl⟩ := h
      simp [ih h']

def byte : Format UInt8 where
  encode b := [b]
  decode
    | [] => .error .shortInput
    | b :: rest => .ok (b, rest)

/-- Numbers have their low byte first. -/
def uint32 : Format UInt32 where
  encode n := Bytes.ofNatLE 4 n.toNat
  decode input :=
    match take? 4 input with
    | none => .error .shortInput
    | some (front, rest) => .ok (UInt32.ofNat (Bytes.toNatLE front), rest)

def uint64 : Format UInt64 where
  encode n := Bytes.ofNatLE 8 n.toNat
  decode input :=
    match take? 8 input with
    | none => .error .shortInput
    | some (front, rest) => .ok (UInt64.ofNat (Bytes.toNatLE front), rest)

def uint256 : Format UInt256 where
  encode n := Bytes.ofNatLE 32 n.toNat
  decode input :=
    match h : take? 32 input with
    | none => .error .shortBlock
    | some (front, rest) =>
      .ok (⟨Bytes.toNatLE front, by
        have := Bytes.toNatLE_lt front
        rw [length_take? h] at this
        exact this⟩, rest)

def fixed (n : Nat) : Format (FixedBytes n) where
  encode a := a.bytes
  decode input :=
    match h : take? n input with
    | none => .error .shortBlock
    | some (front, rest) => .ok (⟨front, length_take? h⟩, rest)

def pair (f : Format α) (g : Format β) : Format (α × β) where
  encode p := f.encode p.1 ++ g.encode p.2
  decode input :=
    match f.decode input with
    | .error e => .error e
    | .ok (a, rest) =>
      match g.decode rest with
      | .error e => .error e
      | .ok (b, rest) => .ok ((a, b), rest)

def decodeAs (f : Format α) (build : α → β) (input : Bytes) : Except Error (β × Bytes) :=
  match f.decode input with
  | .error e => .error e
  | .ok (a, rest) => .ok (build a, rest)

def via (f : Format α) (build : α → β) (raw : β → α) : Format β where
  encode b := f.encode (raw b)
  decode := f.decodeAs build

def checked {ε : Type} (f : Format α) (check : α → Except ε β) (raw : β → α)
    (message : ε → String) : Format β where
  encode b := f.encode (raw b)
  decode input :=
    match f.decode input with
    | .error e => .error e
    | .ok (a, rest) =>
      match check a with
      | .error e => .error (.rejected (message e))
      | .ok b => .ok (b, rest)

def decodeMany (f : Format α) : (count : Nat) → Bytes → Except Error (List α × Bytes)
  | 0, input => .ok ([], input)
  | count + 1, input =>
    match f.decode input with
    | .error e => .error e
    | .ok (a, rest) =>
      match decodeMany f count rest with
      | .error e => .error e
      | .ok (as, rest) => .ok (a :: as, rest)

def list (f : Format α) : Format (List α) where
  encode as := uint32.encode (UInt32.ofNat as.length) ++ as.flatMap f.encode
  decode input :=
    match uint32.decode input with
    | .error e => .error e
    | .ok (count, rest) => f.decodeMany count.toNat rest

def option (f : Format α) : Format (Option α) where
  encode
    | none => [0]
    | some a => 1 :: f.encode a
  decode
    | [] => .error .shortInput
    | tag :: rest =>
      if tag = 0 then .ok (none, rest)
      else if tag = 1 then
        match f.decode rest with
        | .error e => .error e
        | .ok (a, rest) => .ok (some a, rest)
      else .error (.badOption tag)

def oneOf [DecidableEq α] (cases : List α) : Format α where
  encode a := [UInt8.ofNat (cases.idxOf a)]
  decode
    | [] => .error .shortInput
    | tag :: rest =>
      match cases[tag.toNat]? with
      | some a => .ok (a, rest)
      | none => .error (.badTag tag)

/-- The entries in order of their keys. They are read in any order, and of two with one key the
later one counts. -/
def table [Ranked κ] (f : Format κ) (g : Format ν) : Format (Table κ ν) :=
  (list (pair f g)).via Table.ofList (·.entries)

end Format

end TokenBridge.Borsh
