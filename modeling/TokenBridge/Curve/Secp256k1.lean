import TokenBridge.FixedBytes

namespace TokenBridge.Secp256k1

def fieldOrder : Nat := 0xfffffffffffffffffffffffffffffffffffffffffffffffffffffffefffffc2f

def groupOrder : Nat := 0xfffffffffffffffffffffffffffffffebaaedce6af48a03bbfd25e8cd0364141

abbrev Field := Fin fieldOrder

abbrev Scalar := Fin groupOrder

instance : @NeZero Nat Zero.ofOfNat0 fieldOrder := ⟨by decide⟩

instance : @NeZero Nat Zero.ofOfNat0 groupOrder := ⟨by decide⟩

def power {n : Nat} (x : Fin n) : (bits exponent : Nat) → Fin n
  | 0, _ => ⟨1 % n, Nat.mod_lt 1 x.pos⟩
  | bits + 1, exponent =>
    let rest := power (x * x) bits (exponent / 2)
    if exponent % 2 = 1 then x * rest else rest

/-- The inverse modulo a 256-bit prime, with `0` for `0`. -/
def inverse {n : Nat} (x : Fin n) : Fin n := power x 256 (n - 2)

def reduced? (n value : Nat) : Option (Fin n) := if h : value < n then some ⟨value, h⟩ else none

def isOdd (y : Field) : Bool := y.val % 2 = 1

structure Point where
  x : Field
  y : Field
deriving DecidableEq

def Point.OnCurve (p : Point) : Prop := p.y * p.y = p.x * p.x * p.x + 7

instance (p : Point) : Decidable p.OnCurve := inferInstanceAs (Decidable (_ = _))

def generator : Point where
  x := ⟨0x79be667ef9dcbbac55a06295ce870b07029bfcdb2dce28d959f2815b16f81798, by decide⟩
  y := ⟨0x483ada7726a3c4655da4fbfc0e1108a8fd17b448a68554199c47d08ffb10d4b8, by decide⟩

/-- The point with this `x` and the asked parity of `y`. The exponent is a square root because
the field order is three modulo four. -/
def Point.ofX? (x : Field) (odd : Bool) : Option Point :=
  let root := power (x * x * x + 7) 256 ((fieldOrder + 1) / 4)
  let p : Point := ⟨x, if isOdd root = odd then root else 0 - root⟩
  if p.OnCurve then some p else none

/-- The point `(x / z², y / z³)`, or the point at infinity when `z = 0`. -/
structure Jacobian where
  x : Field
  y : Field
  z : Field

namespace Jacobian

def infinity : Jacobian := ⟨1, 1, 0⟩

def ofPoint (p : Point) : Jacobian := ⟨p.x, p.y, 1⟩

def toPoint? (p : Jacobian) : Option Point :=
  if p.z = 0 then none
  else
    let inv := inverse p.z
    let square := inv * inv
    some ⟨p.x * square, p.y * square * inv⟩

def double (p : Jacobian) : Jacobian :=
  let square := p.y * p.y
  let s := 4 * p.x * square
  let m := 3 * p.x * p.x
  let x := m * m - 2 * s
  ⟨x, m * (s - x) - 8 * square * square, 2 * p.y * p.z⟩

def add (p q : Jacobian) : Jacobian :=
  if p.z = 0 then q
  else if q.z = 0 then p
  else
    let pz := p.z * p.z
    let qz := q.z * q.z
    let u := p.x * qz
    let s := p.y * qz * q.z
    let h := q.x * pz - u
    let r := q.y * pz * p.z - s
    if h = 0 then
      if r = 0 then double p else infinity
    else
      let hh := h * h
      let hhh := h * hh
      let v := u * hh
      let x := r * r - hhh - 2 * v
      ⟨x, r * (v - x) - s * hhh, h * p.z * q.z⟩

def multiply (p : Jacobian) : (bits factor : Nat) → Jacobian
  | 0, _ => infinity
  | bits + 1, factor =>
    let rest := multiply (double p) bits (factor / 2)
    if factor % 2 = 1 then add p rest else rest

end Jacobian

def Point.multiply (p : Point) (k : Scalar) : Jacobian := (Jacobian.ofPoint p).multiply 256 k.val

def Point.bytes (p : Point) : Bytes := Bytes.ofNatBE 32 p.x.val ++ Bytes.ofNatBE 32 p.y.val

/-- Reads a key of 33 bytes (`x` and the parity of `y`) or 65 bytes (both coordinates, whose mark
may also state the parity). -/
def Point.ofBytes? : Bytes → Option Point
  | [] => none
  | mark :: rest =>
    if rest.length = 32 ∧ (mark = 2 ∨ mark = 3) then
      (reduced? fieldOrder (Bytes.toNatBE rest)).bind fun x ↦ Point.ofX? x (mark = 3)
    else if rest.length = 64 ∧ (mark = 4 ∨ mark = 6 ∨ mark = 7) then do
      let x ← reduced? fieldOrder (Bytes.toNatBE (rest.take 32))
      let y ← reduced? fieldOrder (Bytes.toNatBE (rest.drop 32))
      let p : Point := ⟨x, y⟩
      if p.OnCurve ∧ (mark = 4 ∨ isOdd y = decide (mark = 7)) then some p else none
    else none

end TokenBridge.Secp256k1
