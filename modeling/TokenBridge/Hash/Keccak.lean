import TokenBridge.FixedBytes

namespace TokenBridge.Keccak

/-- The sponge state: lane `a[x][y]`, both coordinates counted modulo five. -/
abbrev Lanes := Vector (Vector UInt64 5) 5

def Lanes.zero : Lanes := Vector.replicate 5 (Vector.replicate 5 0)

def rotateLeft (w k : UInt64) : UInt64 := (w <<< k) ||| (w >>> (64 - k))

def offsets : Lanes :=
  #v[#v[0, 36, 3, 41, 18], #v[1, 44, 10, 45, 2], #v[62, 6, 43, 15, 61],
     #v[28, 55, 25, 21, 56], #v[27, 20, 39, 8, 14]]

def roundConstants : List UInt64 :=
  [0x0000000000000001, 0x0000000000008082, 0x800000000000808a, 0x8000000080008000,
   0x000000000000808b, 0x0000000080000001, 0x8000000080008081, 0x8000000000008009,
   0x000000000000008a, 0x0000000000000088, 0x0000000080008009, 0x000000008000000a,
   0x000000008000808b, 0x800000000000008b, 0x8000000000008089, 0x8000000000008003,
   0x8000000000008002, 0x8000000000000080, 0x000000000000800a, 0x800000008000000a,
   0x8000000080008081, 0x8000000000008080, 0x0000000080000001, 0x8000000080008008]

def theta (a : Lanes) : Lanes :=
  let parity : Vector UInt64 5 := a.map fun lane ↦ lane[0] ^^^ lane[1] ^^^ lane[2] ^^^ lane[3] ^^^ lane[4]
  Vector.ofFn fun x : Fin 5 ↦
    let d := parity[x + 4] ^^^ rotateLeft parity[x + 1] 1
    a[x].map (· ^^^ d)

def rhoPi (a : Lanes) : Lanes :=
  Vector.ofFn fun x : Fin 5 ↦ Vector.ofFn fun y : Fin 5 ↦
    rotateLeft a[x + 3 * y][x] offsets[x + 3 * y][x]

def chi (a : Lanes) : Lanes :=
  Vector.ofFn fun x : Fin 5 ↦ Vector.ofFn fun y : Fin 5 ↦
    a[x][y] ^^^ (~~~ a[x + 1][y] &&& a[x + 2][y])

def iota (constant : UInt64) (a : Lanes) : Lanes :=
  a.set 0 (a[0].set 0 (a[0][0] ^^^ constant))

def permute (a : Lanes) : Lanes :=
  roundConstants.foldl (fun a constant ↦ iota constant (chi (rhoPi (theta a)))) a

def rate : Nat := 136

def absorb (a : Lanes) (block : Bytes) : Lanes :=
  permute <| Vector.ofFn fun x : Fin 5 ↦ Vector.ofFn fun y : Fin 5 ↦
    a[x][y] ^^^ UInt64.ofNat (Bytes.toNatLE ((block.drop (8 * (x.val + 5 * y.val))).take 8))

/-- One bit behind the message and one at the end of the last block, which may share a byte. -/
def pad (message : Bytes) : Bytes :=
  let gap := rate - message.length % rate
  if gap = 1 then message ++ [0x81]
  else message ++ 0x01 :: List.replicate (gap - 2) 0 ++ [0x80]

def squeeze (a : Lanes) : Word :=
  ⟨Bytes.ofNatLE 8 a[0][0].toNat ++ Bytes.ofNatLE 8 a[1][0].toNat
    ++ Bytes.ofNatLE 8 a[2][0].toNat ++ Bytes.ofNatLE 8 a[3][0].toNat, by simp⟩

end TokenBridge.Keccak

namespace TokenBridge

/-- The 256-bit Keccak digest; the padding is a one, zeros and a one, without a suffix before it. -/
def keccak256 (message : Bytes) : Word :=
  let padded := Keccak.pad message
  Keccak.squeeze <|
    (Bytes.chunks Keccak.rate (padded.length / Keccak.rate) padded).foldl Keccak.absorb Keccak.Lanes.zero

end TokenBridge
