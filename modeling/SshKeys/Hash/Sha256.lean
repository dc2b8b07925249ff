import SshKeys.Bytes

/-!
# SHA-224 and SHA-256

FIPS 180-4 on 32-bit words.  The two functions share the compression and differ
in the initial state and in how much of the final state they keep.
-/

namespace SshKeys.Sha256

/-- The eight working words. -/
structure State where
  a : UInt32
  b : UInt32
  c : UInt32
  d : UInt32
  e : UInt32
  f : UInt32
  g : UInt32
  h : UInt32

def State.add (s t : State) : State :=
  ⟨s.a + t.a, s.b + t.b, s.c + t.c, s.d + t.d, s.e + t.e, s.f + t.f, s.g + t.g, s.h + t.h⟩

def State.toBytes (s : State) : Bytes :=
  [s.a, s.b, s.c, s.d, s.e, s.f, s.g, s.h].flatMap Bytes.be32

/-- One constant for each of the sixty-four steps. -/
def constants : Array UInt32 := #[
  0x428a2f98, 0x71374491, 0xb5c0fbcf, 0xe9b5dba5, 0x3956c25b, 0x59f111f1, 0x923f82a4, 0xab1c5ed5,
  0xd807aa98, 0x12835b01, 0x243185be, 0x550c7dc3, 0x72be5d74, 0x80deb1fe, 0x9bdc06a7, 0xc19bf174,
  0xe49b69c1, 0xefbe4786, 0x0fc19dc6, 0x240ca1cc, 0x2de92c6f, 0x4a7484aa, 0x5cb0a9dc, 0x76f988da,
  0x983e5152, 0xa831c66d, 0xb00327c8, 0xbf597fc7, 0xc6e00bf3, 0xd5a79147, 0x06ca6351, 0x14292967,
  0x27b70a85, 0x2e1b2138, 0x4d2c6dfc, 0x53380d13, 0x650a7354, 0x766a0abb, 0x81c2c92e, 0x92722c85,
  0xa2bfe8a1, 0xa81a664b, 0xc24b8b70, 0xc76c51a3, 0xd192e819, 0xd6990624, 0xf40e3585, 0x106aa070,
  0x19a4c116, 0x1e376c08, 0x2748774c, 0x34b0bcb5, 0x391c0cb3, 0x4ed8aa4a, 0x5b9cca4f, 0x682e6ff3,
  0x748f82ee, 0x78a5636f, 0x84c87814, 0x8cc70208, 0x90befffa, 0xa4506ceb, 0xbef9a3f7, 0xc67178f2]

@[inline] def rotr (x : UInt32) (n : UInt32) : UInt32 :=
  x >>> n ||| x <<< (32 - n)

/-- The remaining `left` steps.  `w0` to `w15` are the next sixteen words of the
message schedule; each step consumes the first and appends a new one. -/
def steps : (left : Nat) → (w0 w1 w2 w3 w4 w5 w6 w7 w8 w9 w10 w11 w12 w13 w14 w15 : UInt32) →
    (a b c d e f g h : UInt32) → State
  | 0, _, _, _, _, _, _, _, _, _, _, _, _, _, _, _, _, a, b, c, d, e, f, g, h =>
    ⟨a, b, c, d, e, f, g, h⟩
  | left + 1, w0, w1, w2, w3, w4, w5, w6, w7, w8, w9, w10, w11, w12, w13, w14, w15,
      a, b, c, d, e, f, g, h =>
    let t1 := h + (rotr e 6 ^^^ rotr e 11 ^^^ rotr e 25) + (e &&& f ^^^ ~~~e &&& g)
      + constants.getD (63 - left) 0 + w0
    let t2 := (rotr a 2 ^^^ rotr a 13 ^^^ rotr a 22) + (a &&& b ^^^ a &&& c ^^^ b &&& c)
    let w16 := w0 + (rotr w1 7 ^^^ rotr w1 18 ^^^ w1 >>> 3) + w9
      + (rotr w14 17 ^^^ rotr w14 19 ^^^ w14 >>> 10)
    steps left w1 w2 w3 w4 w5 w6 w7 w8 w9 w10 w11 w12 w13 w14 w15 w16
      (t1 + t2) a b c (d + t1) e f g

/-- Absorbs one block of sixteen words. -/
def compress (s : State) : List UInt32 → State
  | [w0, w1, w2, w3, w4, w5, w6, w7, w8, w9, w10, w11, w12, w13, w14, w15] =>
    s.add (steps 64 w0 w1 w2 w3 w4 w5 w6 w7 w8 w9 w10 w11 w12 w13 w14 w15
      s.a s.b s.c s.d s.e s.f s.g s.h)
  | _ => s

/-- Absorbs `n` blocks of 64 bytes. -/
def absorb : Nat → State → Bytes → State
  | 0, s, _ => s
  | n + 1, s, b => absorb n (compress s (Bytes.words32 (b.take 64))) (b.drop 64)

/-- The message, a one bit, zeros, and the bit length in eight bytes, filling blocks of 64. -/
def pad (m : Bytes) : Bytes :=
  m ++ 0x80 :: Bytes.zeros ((119 - m.length % 64) % 64) ++ Bytes.ofNat 8 (8 * m.length)

def run (initial : State) (m : Bytes) : Bytes :=
  let p := pad m
  (absorb (p.length / 64) initial p).toBytes

def initial256 : State :=
  ⟨0x6a09e667, 0xbb67ae85, 0x3c6ef372, 0xa54ff53a, 0x510e527f, 0x9b05688c, 0x1f83d9ab, 0x5be0cd19⟩

def initial224 : State :=
  ⟨0xc1059ed8, 0x367cd507, 0x3070dd17, 0xf70e5939, 0xffc00b31, 0x68581511, 0x64f98fa7, 0xbefa4fa4⟩

end SshKeys.Sha256

namespace SshKeys

/-- The 32-byte SHA-256 digest. -/
def sha256 (m : Bytes) : Bytes :=
  Sha256.run Sha256.initial256 m

/-- The 28-byte SHA-224 digest. -/
def sha224 (m : Bytes) : Bytes :=
  (Sha256.run Sha256.initial224 m).take 28

end SshKeys
