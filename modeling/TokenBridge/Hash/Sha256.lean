import TokenBridge.FixedBytes

namespace TokenBridge.Sha256

structure Chain where
  (a b c d e f g h : UInt32)

def Chain.initial : Chain :=
  ⟨0x6a09e667, 0xbb67ae85, 0x3c6ef372, 0xa54ff53a, 0x510e527f, 0x9b05688c, 0x1f83d9ab, 0x5be0cd19⟩

def Chain.add (p q : Chain) : Chain :=
  ⟨p.a + q.a, p.b + q.b, p.c + q.c, p.d + q.d, p.e + q.e, p.f + q.f, p.g + q.g, p.h + q.h⟩

def rotateRight (w k : UInt32) : UInt32 := (w >>> k) ||| (w <<< (32 - k))

def roundConstants : List UInt32 :=
  [0x428a2f98, 0x71374491, 0xb5c0fbcf, 0xe9b5dba5, 0x3956c25b, 0x59f111f1, 0x923f82a4, 0xab1c5ed5,
   0xd807aa98, 0x12835b01, 0x243185be, 0x550c7dc3, 0x72be5d74, 0x80deb1fe, 0x9bdc06a7, 0xc19bf174,
   0xe49b69c1, 0xefbe4786, 0x0fc19dc6, 0x240ca1cc, 0x2de92c6f, 0x4a7484aa, 0x5cb0a9dc, 0x76f988da,
   0x983e5152, 0xa831c66d, 0xb00327c8, 0xbf597fc7, 0xc6e00bf3, 0xd5a79147, 0x06ca6351, 0x14292967,
   0x27b70a85, 0x2e1b2138, 0x4d2c6dfc, 0x53380d13, 0x650a7354, 0x766a0abb, 0x81c2c92e, 0x92722c85,
   0xa2bfe8a1, 0xa81a664b, 0xc24b8b70, 0xc76c51a3, 0xd192e819, 0xd6990624, 0xf40e3585, 0x106aa070,
   0x19a4c116, 0x1e376c08, 0x2748774c, 0x34b0bcb5, 0x391c0cb3, 0x4ed8aa4a, 0x5b9cca4f, 0x682e6ff3,
   0x748f82ee, 0x78a5636f, 0x84c87814, 0x8cc70208, 0x90befffa, 0xa4506ceb, 0xbef9a3f7, 0xc67178f2]

def schedule : Nat → List UInt32 → List UInt32
  | count + 1, w :: rest =>
    let near := rest.getD 13 0
    let far := rest.getD 0 0
    let next := (rotateRight near 17 ^^^ rotateRight near 19 ^^^ (near >>> 10)) + rest.getD 8 0
      + (rotateRight far 7 ^^^ rotateRight far 18 ^^^ (far >>> 3)) + w
    w :: schedule count (rest ++ [next])
  | _, _ => []

def step (s : Chain) (constant word : UInt32) : Chain :=
  let t₁ := s.h + (rotateRight s.e 6 ^^^ rotateRight s.e 11 ^^^ rotateRight s.e 25)
    + ((s.e &&& s.f) ^^^ (~~~ s.e &&& s.g)) + constant + word
  let t₂ := (rotateRight s.a 2 ^^^ rotateRight s.a 13 ^^^ rotateRight s.a 22)
    + ((s.a &&& s.b) ^^^ (s.a &&& s.c) ^^^ (s.b &&& s.c))
  ⟨t₁ + t₂, s.a, s.b, s.c, s.d + t₁, s.e, s.f, s.g⟩

def compress (s : Chain) (block : Bytes) : Chain :=
  let words := (Bytes.chunks 4 16 block).map fun w ↦ UInt32.ofNat (Bytes.toNatBE w)
  s.add ((roundConstants.zip (schedule 64 words)).foldl (fun s p ↦ step s p.1 p.2) s)

/-- One bit, zeros, and the length in bits as the last eight bytes of a block. -/
def pad (message : Bytes) : Bytes :=
  let zeros := (119 - message.length % 64) % 64
  message ++ 0x80 :: List.replicate zeros 0 ++ Bytes.ofNatBE 8 (8 * message.length)

def Chain.digest (s : Chain) : Word :=
  let word (w : UInt32) : Bytes := Bytes.ofNatBE 4 w.toNat
  ⟨word s.a ++ word s.b ++ word s.c ++ word s.d ++ word s.e ++ word s.f ++ word s.g ++ word s.h,
    by simp [word]⟩

end TokenBridge.Sha256

namespace TokenBridge

def sha256 (message : Bytes) : Word :=
  let padded := Sha256.pad message
  ((Bytes.chunks 64 (padded.length / 64) padded).foldl Sha256.compress Sha256.Chain.initial).digest

/-- The keyed hash of RFC 2104; a key longer than a block is hashed first. -/
def hmacSha256 (key message : Bytes) : Word :=
  let short := if key.length > 64 then (sha256 key).bytes else key
  let block := short ++ List.replicate (64 - short.length) 0
  sha256 (block.map (· ^^^ 0x5c) ++ (sha256 (block.map (· ^^^ 0x36) ++ message)).bytes)

end TokenBridge
