import SshKeys.Bytes

/-!
# ChaCha20

The stream cipher of RFC 8439: each 64-byte block of keystream is a function of
the key, a 32-bit counter and a 12-byte nonce.
-/

namespace SshKeys.ChaCha20

@[inline] def rotl (x n : UInt32) : UInt32 :=
  x <<< n ||| x >>> (32 - n)

/-- `pairs` double rounds. -/
def rounds : (pairs : Nat) → (x0 x1 x2 x3 x4 x5 x6 x7 : UInt32) →
    (x8 x9 x10 x11 x12 x13 x14 x15 : UInt32) → List UInt32
  | 0, x0, x1, x2, x3, x4, x5, x6, x7, x8, x9, x10, x11, x12, x13, x14, x15 =>
    [x0, x1, x2, x3, x4, x5, x6, x7, x8, x9, x10, x11, x12, x13, x14, x15]
  | n + 1, x0, x1, x2, x3, x4, x5, x6, x7, x8, x9, x10, x11, x12, x13, x14, x15 =>
    let x0 := x0 + x4
    let x12 := rotl (x12 ^^^ x0) 16
    let x8 := x8 + x12
    let x4 := rotl (x4 ^^^ x8) 12
    let x0 := x0 + x4
    let x12 := rotl (x12 ^^^ x0) 8
    let x8 := x8 + x12
    let x4 := rotl (x4 ^^^ x8) 7
    let x1 := x1 + x5
    let x13 := rotl (x13 ^^^ x1) 16
    let x9 := x9 + x13
    let x5 := rotl (x5 ^^^ x9) 12
    let x1 := x1 + x5
    let x13 := rotl (x13 ^^^ x1) 8
    let x9 := x9 + x13
    let x5 := rotl (x5 ^^^ x9) 7
    let x2 := x2 + x6
    let x14 := rotl (x14 ^^^ x2) 16
    let x10 := x10 + x14
    let x6 := rotl (x6 ^^^ x10) 12
    let x2 := x2 + x6
    let x14 := rotl (x14 ^^^ x2) 8
    let x10 := x10 + x14
    let x6 := rotl (x6 ^^^ x10) 7
    let x3 := x3 + x7
    let x15 := rotl (x15 ^^^ x3) 16
    let x11 := x11 + x15
    let x7 := rotl (x7 ^^^ x11) 12
    let x3 := x3 + x7
    let x15 := rotl (x15 ^^^ x3) 8
    let x11 := x11 + x15
    let x7 := rotl (x7 ^^^ x11) 7
    let x0 := x0 + x5
    let x15 := rotl (x15 ^^^ x0) 16
    let x10 := x10 + x15
    let x5 := rotl (x5 ^^^ x10) 12
    let x0 := x0 + x5
    let x15 := rotl (x15 ^^^ x0) 8
    let x10 := x10 + x15
    let x5 := rotl (x5 ^^^ x10) 7
    let x1 := x1 + x6
    let x12 := rotl (x12 ^^^ x1) 16
    let x11 := x11 + x12
    let x6 := rotl (x6 ^^^ x11) 12
    let x1 := x1 + x6
    let x12 := rotl (x12 ^^^ x1) 8
    let x11 := x11 + x12
    let x6 := rotl (x6 ^^^ x11) 7
    let x2 := x2 + x7
    let x13 := rotl (x13 ^^^ x2) 16
    let x8 := x8 + x13
    let x7 := rotl (x7 ^^^ x8) 12
    let x2 := x2 + x7
    let x13 := rotl (x13 ^^^ x2) 8
    let x8 := x8 + x13
    let x7 := rotl (x7 ^^^ x8) 7
    let x3 := x3 + x4
    let x14 := rotl (x14 ^^^ x3) 16
    let x9 := x9 + x14
    let x4 := rotl (x4 ^^^ x9) 12
    let x3 := x3 + x4
    let x14 := rotl (x14 ^^^ x3) 8
    let x9 := x9 + x14
    let x4 := rotl (x4 ^^^ x9) 7
    rounds n x0 x1 x2 x3 x4 x5 x6 x7 x8 x9 x10 x11 x12 x13 x14 x15

/-- The words a block starts from: four constants, the key, the counter, the nonce. -/
def start (key : Bytes) (counter : UInt32) (nonce : Bytes) : List UInt32 :=
  [0x61707865, 0x3320646e, 0x79622d32, 0x6b206574] ++ Bytes.words32LE key
    ++ counter :: Bytes.words32LE nonce

/-- Twenty rounds, then the sum with the words they began from. -/
def mix : List UInt32 → List UInt32
  | [x0, x1, x2, x3, x4, x5, x6, x7, x8, x9, x10, x11, x12, x13, x14, x15] =>
    List.zipWith (· + ·) (rounds 10 x0 x1 x2 x3 x4 x5 x6 x7 x8 x9 x10 x11 x12 x13 x14 x15)
      [x0, x1, x2, x3, x4, x5, x6, x7, x8, x9, x10, x11, x12, x13, x14, x15]
  | _ => List.replicate 16 0

/-- One block of 64 bytes. -/
def block (key nonce : Bytes) (counter : Nat) : Bytes :=
  (mix (start key (UInt32.ofNat counter) nonce)).flatMap Bytes.le32

/-- How many blocks the counter numbers; its last value is never used. -/
def blockLimit : Nat := 0xffffffff

/-- The first `blocks` blocks of the keystream, from counter zero. -/
def keystream (key nonce : Bytes) (blocks : Nat) : Bytes :=
  (List.range blocks).flatMap (block key nonce)

end SshKeys.ChaCha20
