import TokenBridge.Json.Parser
import TokenBridge.Json.Printer
import TokenBridge.UInt256

namespace TokenBridge.Json

/-- How values of a type are written as documents, and which documents are read as values. -/
structure Format (α : Type) where
  shape : Shape
  toJson : α → Json
  ofJson? : Json → Option α

structure Fields (α : Type) where
  shapes : List (String × Shape)
  toValues : α → List Json
  ofValues? : List Json → Option α

namespace Fields

variable {α β : Type}

def names (f : Fields α) : List String := f.shapes.map (·.1)

def single (name : String) (f : Format α) : Fields α where
  shapes := [(name, f.shape)]
  toValues a := [f.toJson a]
  ofValues?
    | [j] => f.ofJson? j
    | _ => none

def append (f : Fields α) (g : Fields β) : Fields (α × β) where
  shapes := f.shapes ++ g.shapes
  toValues p := f.toValues p.1 ++ g.toValues p.2
  ofValues? values := do
    let a ← f.ofValues? (values.take f.names.length)
    let b ← g.ofValues? (values.drop f.names.length)
    some (a, b)

instance : HAppend (Fields α) (Fields β) (Fields (α × β)) := ⟨append⟩

end Fields

namespace Format

variable {α β : Type}

def text (f : Format α) (a : α) : String := (f.toJson a).compact

def ofText? (f : Format α) (s : String) : Option α := (Json.ofText? f.shape s).bind f.ofJson?

def via (f : Format α) (build : α → β) (raw : β → α) : Format β where
  shape := f.shape
  toJson b := f.toJson (raw b)
  ofJson? j := (f.ofJson? j).map build

def checked {ε : Type} (f : Format α) (check : α → Except ε β) (raw : β → α) : Format β where
  shape := f.shape
  toJson b := f.toJson (raw b)
  ofJson? j := (f.ofJson? j).bind fun a ↦ (check a).toOption

def natural (bound : Nat) : Format Nat where
  shape := .any
  toJson := nat
  ofJson?
    | nat n => if n < bound then some n else none
    | _ => none

def byte : Format UInt8 := (natural UInt8.size).via UInt8.ofNat UInt8.toNat

def uint32 : Format UInt32 := (natural UInt32.size).via UInt32.ofNat UInt32.toNat

def uint64 : Format UInt64 := (natural UInt64.size).via UInt64.ofNat UInt64.toNat

/-- Written as a string of digits; read from any numeral in a string, and from a small number. -/
def uint256 : Format UInt256 where
  shape := .any
  toJson n := Json.text n.hex
  ofJson?
    | nat n => if n < UInt64.size then UInt256.ofNat? n else none
    | string (some s) => (UInt256.ofText s).toOption
    | _ => none

def list (f : Format α) : Format (List α) where
  shape := .list f.shape
  toJson as := array (as.map f.toJson)
  ofJson?
    | array items => items.mapM f.ofJson?
    | _ => none

def option (f : Format α) : Format (Option α) where
  shape := f.shape
  toJson
    | none => null
    | some a => f.toJson a
  ofJson?
    | null => some none
    | j => (f.ofJson? j).map some

/-- Written as a string of digits; read from an array of bytes, too. -/
def fixed (n : Nat) : Format (FixedBytes n) where
  shape := .bytes n
  toJson a := Json.text a.toHex
  ofJson?
    | string (some s) => (FixedBytes.ofHex n s).toOption
    | j => ((list byte).ofJson? j).bind FixedBytes.ofBytes?

def record (f : Fields α) : Format α where
  shape := .record f.shapes
  toJson a := object ((f.names.map some).zip (f.toValues a))
  ofJson? j := (fields? f.names j).bind f.ofValues?

def tagged (name : String) (f : Format α) : Format α where
  shape := .record [(name, f.shape)]
  toJson a := object [(some name, f.toJson a)]
  ofJson?
    | object [(some name', j)] => if name' = name then f.ofJson? j else none
    | _ => none

/-- The name of one of the listed values, alone or as the name of nothing. -/
def oneOf (all : List α) (name : α → String) : Format α where
  shape := .any
  toJson a := Json.text (name a)
  ofJson?
    | string (some s) => all.find? fun a ↦ name a = s
    | object [(some s, null)] => all.find? fun a ↦ name a = s
    | _ => none

end Format

end TokenBridge.Json
