import TokenBridge.Bytes

namespace TokenBridge

structure FixedBytes (n : Nat) where
  bytes : Bytes
  length_bytes : bytes.length = n
deriving DecidableEq

abbrev Address := FixedBytes 20

abbrev Word := FixedBytes 32

namespace FixedBytes

variable {n : Nat}

@[ext] theorem ext {a b : FixedBytes n} (h : a.bytes = b.bytes) : a = b := by
  cases a
  cases b
  simp_all

def ofBytes? (bytes : Bytes) : Option (FixedBytes n) :=
  if h : bytes.length = n then some ⟨bytes, h⟩ else none

def zero (n : Nat) : FixedBytes n := ⟨List.replicate n 0, List.length_replicate⟩

instance : Inhabited (FixedBytes n) := ⟨zero n⟩

def isZero (a : FixedBytes n) : Bool := a.bytes.all (· == 0)

/-- Short values stand at the left end, with zeros behind. -/
def padRight (bytes : Bytes) (h : bytes.length ≤ n) : FixedBytes n :=
  ⟨bytes ++ List.replicate (n - bytes.length) 0, by
    rw [List.length_append, List.length_replicate]
    omega⟩

/-- Short values stand at the right end, with zeros in front. -/
def padLeft (bytes : Bytes) (h : bytes.length ≤ n) : FixedBytes n :=
  ⟨List.replicate (n - bytes.length) 0 ++ bytes, by
    rw [List.length_append, List.length_replicate]
    omega⟩

/-- The big-endian value, which orders strings of one length as their bytes do. -/
def toNat (a : FixedBytes n) : Nat := Bytes.toNatBE a.bytes

def ofNat (n value : Nat) : FixedBytes n := ⟨Bytes.ofNatBE n value, Bytes.length_ofNatBE n value⟩

theorem toNat_lt (a : FixedBytes n) : a.toNat < Bytes.count n := by
  simpa [toNat, a.length_bytes] using Bytes.toNatBE_lt a.bytes

theorem toNat_ofNat {value : Nat} (h : value < Bytes.count n) : (ofNat n value).toNat = value :=
  Bytes.toNatBE_ofNatBE n h

theorem ofNat_toNat (a : FixedBytes n) : ofNat n a.toNat = a := by
  apply ext
  have h := Bytes.ofNatBE_toNatBE a.bytes
  rwa [a.length_bytes] at h

theorem toNat_injective {a b : FixedBytes n} (h : a.toNat = b.toNat) : a = b := by
  rw [← ofNat_toNat a, ← ofNat_toNat b, h]

end FixedBytes

def Address.toWord (a : Address) : Word := FixedBytes.padLeft a.bytes (by rw [a.length_bytes]; decide)

/-- The account in the last twenty bytes of a word; the bytes before them do not matter. -/
def Word.toAddress (w : Word) : Address :=
  ⟨w.bytes.drop 12, by rw [List.length_drop, w.length_bytes]⟩

end TokenBridge
