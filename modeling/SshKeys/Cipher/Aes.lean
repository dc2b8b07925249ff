import SshKeys.Bytes

/-!
# AES

The block cipher of FIPS 197 for keys of 128, 192 and 256 bits.  The
substitution table is computed from its definition: the inverse in the field of
256 elements, followed by an affine map.
-/

namespace SshKeys.Aes

/-- Multiplication by `x` in the field. -/
@[inline] def double (a : UInt8) : UInt8 :=
  a <<< 1 ^^^ (if a &&& 0x80 = 0 then 0 else 0x1b)

/-- The product in the field, over the bits of the second factor.  Elements are the numbers below
256 here. -/
def mul (a b : UInt8) : UInt8 :=
  UInt8.ofNat (go 8 a.toNat b.toNat 0)
where
  go : Nat → Nat → Nat → Nat → Nat
    | 0, _, _, acc => acc
    | n + 1, a, b, acc =>
      go n (if a < 128 then 2 * a else 2 * a ^^^ 0x11b) (b / 2)
        (if b % 2 = 0 then acc else acc ^^^ a)

/-- The inverse of a nonzero element, and zero for zero, is the 254th power: the product of the
squares `a ^ 2`, `a ^ 4` and so on up to `a ^ 128`. -/
def inverse (a : UInt8) : UInt8 :=
  go 7 a 1
where
  go : Nat → UInt8 → UInt8 → UInt8
    | 0, _, acc => acc
    | n + 1, p, acc =>
      let square := mul p p
      go n square (mul acc square)

def rotl (a n : UInt8) : UInt8 :=
  a <<< n ||| a >>> (8 - n)

def substitute (a : UInt8) : UInt8 :=
  let b := inverse a
  b ^^^ rotl b 1 ^^^ rotl b 2 ^^^ rotl b 3 ^^^ rotl b 4 ^^^ 0x63

/-- The first values of a function. -/
def values {α : Type} (n : Nat) (f : Nat → α) : Vector α n :=
  ⟨((List.range n).map f).toArray, by simp⟩

/-- A function on bytes as a table, with a row for each upper half. -/
abbrev Table := Vector (Vector UInt8 16) 16

def Table.of (f : UInt8 → UInt8) : Table :=
  values 16 fun i => values 16 fun j => f (UInt8.ofNat (16 * i + j))

@[inline] def Table.entry (t : Table) (a : UInt8) : UInt8 :=
  (t.get ⟨a.toNat / 16, Nat.div_lt_of_lt_mul a.toNat_lt⟩).get
    ⟨a.toNat % 16, Nat.mod_lt _ (by decide)⟩

def box : Table :=
  .of substitute

/-- Undoes the affine map first, and then the inversion. -/
def unsubstitute (a : UInt8) : UInt8 :=
  inverse (rotl a 1 ^^^ rotl a 3 ^^^ rotl a 6 ^^^ 0x05)

/-- The table that undoes `box`. -/
def inverseBox : Table :=
  .of unsubstitute

@[inline] def sub (a : UInt8) : UInt8 :=
  box.entry a

@[inline] def unsub (a : UInt8) : UInt8 :=
  inverseBox.entry a

@[inline] def byte0 (w : UInt32) : UInt8 := (w >>> 24).toUInt8
@[inline] def byte1 (w : UInt32) : UInt8 := (w >>> 16).toUInt8
@[inline] def byte2 (w : UInt32) : UInt8 := (w >>> 8).toUInt8
@[inline] def byte3 (w : UInt32) : UInt8 := w.toUInt8

def subWord (w : UInt32) : UInt32 :=
  Bytes.word32 (sub (byte0 w)) (sub (byte1 w)) (sub (byte2 w)) (sub (byte3 w))

/-- Four columns of four bytes. -/
structure Block where
  c0 : UInt32
  c1 : UInt32
  c2 : UInt32
  c3 : UInt32
  deriving Inhabited

def Block.xor (a b : Block) : Block :=
  ⟨a.c0 ^^^ b.c0, a.c1 ^^^ b.c1, a.c2 ^^^ b.c2, a.c3 ^^^ b.c3⟩

def Block.toBytes (b : Block) : Bytes :=
  [b.c0, b.c1, b.c2, b.c3].flatMap Bytes.be32

/-- The block of sixteen bytes; words that are missing count as zero. -/
def Block.ofBytes (b : Bytes) : Block :=
  match Bytes.words32 b with
  | c0 :: c1 :: c2 :: c3 :: _ => ⟨c0, c1, c2, c3⟩
  | _ => ⟨0, 0, 0, 0⟩

/-- The words of the expanded key, one after the other. -/
def expandWords (keyWords : Nat) : (left : Nat) → (round : UInt8) → Array UInt32 → Array UInt32
  | 0, _, ws => ws
  | n + 1, round, ws =>
    let i := ws.size
    let last := ws.getD (i - 1) 0
    let (t, round) :=
      if i % keyWords = 0 then
        (subWord (last <<< 8 ||| last >>> 24) ^^^ round.toUInt32 <<< 24, double round)
      else if 6 < keyWords ∧ i % keyWords = 4 then (subWord last, round)
      else (last, round)
    expandWords keyWords n round (ws.push (ws.getD (i - keyWords) 0 ^^^ t))

/-- The round keys, first round first. -/
abbrev Schedule := List Block

/-- The round keys of a key of 16, 24 or 32 bytes. -/
def schedule (key : Bytes) : Schedule :=
  let keyWords := key.length / 4
  let rounds := keyWords + 6
  let ws := expandWords keyWords (4 * (rounds + 1) - keyWords) 1 (Bytes.words32 key).toArray
  (List.range (rounds + 1)).map fun i =>
    ⟨ws.getD (4 * i) 0, ws.getD (4 * i + 1) 0, ws.getD (4 * i + 2) 0, ws.getD (4 * i + 3) 0⟩

/-- Substitutes the bytes of one column after the rows have been shifted. -/
@[inline] def shifted (f : UInt8 → UInt8) (a b c d : UInt32) : UInt32 :=
  Bytes.word32 (f (byte0 a)) (f (byte1 b)) (f (byte2 c)) (f (byte3 d))

def mixColumn (w : UInt32) : UInt32 :=
  let a := byte0 w
  let b := byte1 w
  let c := byte2 w
  let d := byte3 w
  let all := a ^^^ b ^^^ c ^^^ d
  Bytes.word32 (a ^^^ all ^^^ double (a ^^^ b)) (b ^^^ all ^^^ double (b ^^^ c))
    (c ^^^ all ^^^ double (c ^^^ d)) (d ^^^ all ^^^ double (d ^^^ a))

/-- `mixColumn` has order four. -/
def unmixColumn (w : UInt32) : UInt32 :=
  mixColumn (mixColumn (mixColumn w))

def subShift (s : Block) : Block :=
  ⟨shifted sub s.c0 s.c1 s.c2 s.c3, shifted sub s.c1 s.c2 s.c3 s.c0,
    shifted sub s.c2 s.c3 s.c0 s.c1, shifted sub s.c3 s.c0 s.c1 s.c2⟩

def unsubShift (s : Block) : Block :=
  ⟨shifted unsub s.c0 s.c3 s.c2 s.c1, shifted unsub s.c1 s.c0 s.c3 s.c2,
    shifted unsub s.c2 s.c1 s.c0 s.c3, shifted unsub s.c3 s.c2 s.c1 s.c0⟩

def Block.mapColumns (f : UInt32 → UInt32) (s : Block) : Block :=
  ⟨f s.c0, f s.c1, f s.c2, f s.c3⟩

/-- The rounds after the first key addition; the last one mixes no columns. -/
def encryptRounds : Schedule → Block → Block
  | [], s => s
  | [k], s => (subShift s).xor k
  | k :: ks, s => encryptRounds ks (((subShift s).mapColumns mixColumn).xor k)

def encryptBlock (ks : Schedule) (s : Block) : Block :=
  match ks with
  | [] => s
  | k :: ks => encryptRounds ks (s.xor k)

/-- The rounds of decryption, under the round keys in reverse order. -/
def decryptRounds : Schedule → Block → Block
  | [], s => s
  | [k], s => (unsubShift s).xor k
  | k :: ks, s => decryptRounds ks (((unsubShift s).xor k).mapColumns unmixColumn)

def decryptBlock (ks : Schedule) (s : Block) : Block :=
  match ks.reverse with
  | [] => s
  | k :: ks => decryptRounds ks (s.xor k)

/-- Encrypts sixteen bytes. -/
def encrypt (ks : Schedule) (b : Bytes) : Bytes :=
  (encryptBlock ks (.ofBytes b)).toBytes

/-- Decrypts sixteen bytes. -/
def decrypt (ks : Schedule) (b : Bytes) : Bytes :=
  (decryptBlock ks (.ofBytes b)).toBytes

end SshKeys.Aes
