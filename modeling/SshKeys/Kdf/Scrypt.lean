import SshKeys.Kdf.Pbkdf2

/-!
# scrypt

RFC 7914: PBKDF2 around a mixing function that fills a table of `cost` blocks
and then reads it in an order only the running block decides.
-/

namespace SshKeys.Scrypt

/-- A list of 32-bit words, sixteen to a Salsa block. -/
abbrev Words := Array UInt32

def rotl (x n : UInt32) : UInt32 :=
  x <<< n ||| x >>> (32 - n)

/-- `pairs` double rounds of Salsa20, then the sum with the words they began from. -/
def salsa (start : Words) : (pairs : Nat) → (x0 x1 x2 x3 x4 x5 x6 x7 : UInt32) →
    (x8 x9 x10 x11 x12 x13 x14 x15 : UInt32) → Words
  | 0, x0, x1, x2, x3, x4, x5, x6, x7, x8, x9, x10, x11, x12, x13, x14, x15 =>
    #[x0, x1, x2, x3, x4, x5, x6, x7, x8, x9, x10, x11, x12, x13, x14, x15].zipWith (· + ·) start
  | n + 1, x0, x1, x2, x3, x4, x5, x6, x7, x8, x9, x10, x11, x12, x13, x14, x15 =>
    let x4 := x4 ^^^ rotl (x0 + x12) 7
    let x8 := x8 ^^^ rotl (x4 + x0) 9
    let x12 := x12 ^^^ rotl (x8 + x4) 13
    let x0 := x0 ^^^ rotl (x12 + x8) 18
    let x9 := x9 ^^^ rotl (x5 + x1) 7
    let x13 := x13 ^^^ rotl (x9 + x5) 9
    let x1 := x1 ^^^ rotl (x13 + x9) 13
    let x5 := x5 ^^^ rotl (x1 + x13) 18
    let x14 := x14 ^^^ rotl (x10 + x6) 7
    let x2 := x2 ^^^ rotl (x14 + x10) 9
    let x6 := x6 ^^^ rotl (x2 + x14) 13
    let x10 := x10 ^^^ rotl (x6 + x2) 18
    let x3 := x3 ^^^ rotl (x15 + x11) 7
    let x7 := x7 ^^^ rotl (x3 + x15) 9
    let x11 := x11 ^^^ rotl (x7 + x3) 13
    let x15 := x15 ^^^ rotl (x11 + x7) 18
    let x1 := x1 ^^^ rotl (x0 + x3) 7
    let x2 := x2 ^^^ rotl (x1 + x0) 9
    let x3 := x3 ^^^ rotl (x2 + x1) 13
    let x0 := x0 ^^^ rotl (x3 + x2) 18
    let x6 := x6 ^^^ rotl (x5 + x4) 7
    let x7 := x7 ^^^ rotl (x6 + x5) 9
    let x4 := x4 ^^^ rotl (x7 + x6) 13
    let x5 := x5 ^^^ rotl (x4 + x7) 18
    let x11 := x11 ^^^ rotl (x10 + x9) 7
    let x8 := x8 ^^^ rotl (x11 + x10) 9
    let x9 := x9 ^^^ rotl (x8 + x11) 13
    let x10 := x10 ^^^ rotl (x9 + x8) 18
    let x12 := x12 ^^^ rotl (x15 + x14) 7
    let x13 := x13 ^^^ rotl (x12 + x15) 9
    let x14 := x14 ^^^ rotl (x13 + x12) 13
    let x15 := x15 ^^^ rotl (x14 + x13) 18
    salsa start n x0 x1 x2 x3 x4 x5 x6 x7 x8 x9 x10 x11 x12 x13 x14 x15

/-- Salsa20/8 on sixteen words. -/
def salsa8 (b : Words) : Words :=
  let w := fun i => b.getD i 0
  salsa b 4 (w 0) (w 1) (w 2) (w 3) (w 4) (w 5) (w 6) (w 7)
    (w 8) (w 9) (w 10) (w 11) (w 12) (w 13) (w 14) (w 15)

def addWords (a b : Words) : Words :=
  a.zipWith (· ^^^ ·) b

/-- Chains Salsa20/8 through the `2 · r` blocks of `b`; the results at even places come first. -/
def blockMix (r : Nat) (b : Words) : Words :=
  let (_, even, odd) := (List.range (2 * r)).foldl
    (fun (x, even, odd) i =>
      let y := salsa8 (addWords x (b.extract (16 * i) (16 * i + 16)))
      if i % 2 = 0 then (y, even ++ y, odd) else (y, even, odd ++ y))
    (b.extract (16 * (2 * r - 1)) (16 * (2 * r)), #[], #[])
  even ++ odd

/-- Fills the table, then mixes the running block with `n` entries it picks itself. -/
def fill (r : Nat) : (n : Nat) → Words → Array Words → Words × Array Words
  | 0, x, table => (x, table)
  | n + 1, x, table => fill r n (blockMix r x) (table.push x)

def pick (r : Nat) (table : Array Words) : (n : Nat) → Words → Words
  | 0, x => x
  | n + 1, x =>
    let lo := (x.getD (16 * (2 * r - 1)) 0).toNat
    let hi := (x.getD (16 * (2 * r - 1) + 1) 0).toNat
    let j := (hi <<< 32 + lo) % table.size
    pick r table n (blockMix r (addWords x (table.getD j #[])))

def roMix (cost r : Nat) (b : Bytes) : Bytes :=
  let (x, table) := fill r cost (Bytes.words32LE b).toArray (Array.mkEmpty cost)
  (pick r table cost x).toList.flatMap Bytes.le32

/-- `len` bytes derived with a table of `cost` entries, blocks of `128 · r` bytes and `lanes`
independent lanes. -/
def derive (passphrase salt : Bytes) (cost r lanes len : Nat) : Bytes :=
  let b := Pbkdf2.derive .bits256 passphrase salt 1 (lanes * 128 * r)
  let mixed := (List.range lanes).flatMap fun i =>
    roMix cost r ((b.drop (i * 128 * r)).take (128 * r))
  Pbkdf2.derive .bits256 passphrase mixed 1 len

end SshKeys.Scrypt
