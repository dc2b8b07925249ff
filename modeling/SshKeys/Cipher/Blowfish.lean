import SshKeys.Bytes

/-!
# Blowfish with a salted key schedule

The cipher bcrypt is built on.  Its state is one table of 1042 words: eighteen
round keys, then four boxes of 256 words each.  Before a key is mixed in, the
table holds the first fractional digits of `π`; `piFraction` computes them by
Machin's formula, so no table has to be trusted.
-/

namespace SshKeys.Blowfish

/-- `unit · arctan (1 / x)` rounded down term by term, from `2 · pairs` terms of
its alternating series. -/
def arctanInverse (x unit pairs : Nat) : Nat :=
  go pairs 1 (unit / x) 0
where
  go : Nat → Nat → Nat → Nat → Nat
    | 0, _, _, acc => acc
    | n + 1, k, power, acc =>
      let next := power / (x * x)
      go n (k + 4) (next / (x * x)) (acc + power / k - next / (k + 2))

/-- The first `bits` binary digits of `π - 3`. -/
def piFraction (bits : Nat) : Nat :=
  let unit := 1 <<< (bits + 64)
  let pairs := (bits + 64) / 9 + 1
  let pi := 16 * arctanInverse 5 unit pairs - 4 * arctanInverse 239 unit pairs
  (pi - 3 * unit) >>> 64

/-- Round keys in places 0 to 17, boxes from place 18 on. -/
abbrev Table := Vector UInt32 1042

/-- The table no key has been mixed into. -/
def blank : Table :=
  let digits := piFraction (1042 * 32)
  Vector.ofFn fun i => UInt32.ofNat (digits >>> (32 * (1041 - i.val)))

/-- The word of box `box` (0 to 3) at the place a byte names. -/
@[inline] def boxed (t : Table) (box : Fin 4) (x : UInt8) : UInt32 :=
  t.get ⟨18 + 256 * box.val + x.toNat, by have := x.toNat_lt; omega⟩

@[inline] def scramble (t : Table) (x : UInt32) : UInt32 :=
  ((boxed t 0 (x >>> 24).toUInt8 + boxed t 1 (x >>> 16).toUInt8)
    ^^^ boxed t 2 (x >>> 8).toUInt8) + boxed t 3 x.toUInt8

@[inline] def mixed (t : Table) (key : Fin 18) (x y : UInt32) : UInt32 :=
  y ^^^ scramble t x ^^^ t.get ⟨key.val, by omega⟩

/-- The sixteen rounds on a block of two words. -/
@[inline] def encipher (t : Table) (l r : UInt32) : UInt32 × UInt32 :=
  let l := l ^^^ t.get 0
  let r := mixed t 1 l r
  let l := mixed t 2 r l
  let r := mixed t 3 l r
  let l := mixed t 4 r l
  let r := mixed t 5 l r
  let l := mixed t 6 r l
  let r := mixed t 7 l r
  let l := mixed t 8 r l
  let r := mixed t 9 l r
  let l := mixed t 10 r l
  let r := mixed t 11 l r
  let l := mixed t 12 r l
  let r := mixed t 13 l r
  let l := mixed t 14 r l
  let r := mixed t 15 l r
  let l := mixed t 16 r l
  (r ^^^ t.get 17, l)

/-- Sixteen words, read round and round. -/
abbrev Key := Vector UInt32 16

def Key.ofBytes (b : Bytes) : Key :=
  let words := (Bytes.words32 b).toArray
  Vector.ofFn fun i => words.getD i.val 0

/-- Adds the key to the round keys. -/
def addKey (key : Key) (t : Table) : Table :=
  go 18 (Nat.le_refl _) t
where
  go : (n : Nat) → n ≤ 18 → Table → Table
    | 0, _, t => t
    | n + 1, h, t =>
      go n (by omega) (t.set n (t.get ⟨n, by omega⟩ ^^^ key.get ⟨n % 16, by omega⟩) (by omega))

/-- Replaces the table from place `2 · k` on by the running cipher block, adding two salt words
to the block before each step. -/
def refill (salt : Key) (k : Nat) (l r : UInt32) (t : Table) : Table :=
  if h : k < 521 then
    let l := l ^^^ salt.get ⟨2 * k % 16, by omega⟩
    let r := r ^^^ salt.get ⟨(2 * k + 1) % 16, by omega⟩
    let (l, r) := encipher t l r
    refill salt (k + 1) l r ((t.set (2 * k) l (by omega)).set (2 * k + 1) r (by omega))
  else t
termination_by 521 - k

/-- One key expansion: the key is added, then the table is refilled under the salt. -/
def expand (salt key : Key) (t : Table) : Table :=
  refill salt 0 0 0 (addKey key t)

/-- The salt that changes nothing. -/
def noSalt : Key := Vector.replicate 16 0

end SshKeys.Blowfish
