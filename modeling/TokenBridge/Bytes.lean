namespace TokenBridge

abbrev Bytes := List UInt8

namespace Bytes

/-- The low base-256 digits of a number, lowest first; the first argument says how many. -/
def ofNatLE : Nat → Nat → Bytes
  | 0, _ => []
  | width + 1, n => UInt8.ofNat n :: ofNatLE width (n / 256)

def toNatLE : Bytes → Nat
  | [] => 0
  | b :: rest => b.toNat + 256 * toNatLE rest

def ofNatBE (width n : Nat) : Bytes := (ofNatLE width n).reverse

def toNatBE (bytes : Bytes) : Nat := toNatLE bytes.reverse

def count : (length : Nat) → Nat
  | 0 => 1
  | length + 1 => 256 * count length

def ofText (text : String) : Bytes := text.toList.flatMap String.utf8EncodeChar

def chunks (size : Nat) : Nat → Bytes → List Bytes
  | 0, _ => []
  | count + 1, bytes => bytes.take size :: chunks size count (bytes.drop size)

theorem count_pos (length : Nat) : 0 < count length := by
  induction length with
  | zero => decide
  | succ length ih =>
    simp only [count]
    omega

@[simp] theorem length_ofNatLE (width n : Nat) : (ofNatLE width n).length = width := by
  induction width generalizing n with
  | zero => rfl
  | succ width ih => simp [ofNatLE, ih]

@[simp] theorem length_ofNatBE (width n : Nat) : (ofNatBE width n).length = width := by
  simp [ofNatBE]

theorem toNatLE_ofNatLE (width : Nat) {n : Nat} (h : n < count width) :
    toNatLE (ofNatLE width n) = n := by
  induction width generalizing n with
  | zero =>
    simp only [count] at h
    simp only [ofNatLE, toNatLE]
    omega
  | succ width ih =>
    have : n / 256 < count width := by
      simp only [count] at h
      omega
    simp only [ofNatLE, toNatLE, ih this, UInt8.toNat_ofNat']
    omega

theorem toNatLE_lt (bytes : Bytes) : toNatLE bytes < count bytes.length := by
  induction bytes with
  | nil => decide
  | cons b rest ih =>
    have := b.toNat_lt
    simp only [toNatLE, List.length_cons, count]
    omega

theorem ofNatLE_toNatLE (bytes : Bytes) : ofNatLE bytes.length (toNatLE bytes) = bytes := by
  induction bytes with
  | nil => rfl
  | cons b rest ih =>
    have := b.toNat_lt
    have hb : UInt8.ofNat (b.toNat + 256 * toNatLE rest) = b := by
      apply UInt8.toNat_inj.1
      simp only [UInt8.toNat_ofNat']
      omega
    have hr : (b.toNat + 256 * toNatLE rest) / 256 = toNatLE rest := by omega
    simp [ofNatLE, toNatLE, hb, hr, ih]

theorem toNatBE_ofNatBE (width : Nat) {n : Nat} (h : n < count width) :
    toNatBE (ofNatBE width n) = n := by
  simp [toNatBE, ofNatBE, toNatLE_ofNatLE width h]

theorem toNatBE_lt (bytes : Bytes) : toNatBE bytes < count bytes.length := by
  simpa [toNatBE] using toNatLE_lt bytes.reverse

theorem ofNatBE_toNatBE (bytes : Bytes) : ofNatBE bytes.length (toNatBE bytes) = bytes := by
  have h := ofNatLE_toNatLE bytes.reverse
  rw [List.length_reverse] at h
  simp [ofNatBE, toNatBE, h]

end Bytes

end TokenBridge
