import Mathlib.Logic.Function.Iterate
import SshKeys.Proofs.Cipher

/-!
# The keystream of ChaCha20, byte by byte

RFC 8439 describes a block by ten double rounds on a square of sixteen words, each of
four quarter rounds on the columns and four on the diagonals, and says what stands in
the square at first.  `ChaCha20.rounds` has the rounds written out word by word, and
`ChaCha20.start` has the words ready made.  The description here uses neither: it is
read off the standard, with its own rotation, and its own way from bytes to words and
back.

* `rounds_eq`: **the written out rounds are these double rounds**.
* `ofWords_start`: **the words that a block starts from are those of `Square.initial`**.
* `getElem?_block`: byte `i` of a block belongs to word `i / 4` of the square.
* `getElem?_keystream`: **byte `i` of the keystream is `streamByte`**, however many
  blocks are drawn.
-/

namespace SshKeys

namespace ChaCha20

/-! ## Rounds -/

/-- The words of a square, row after row. -/
abbrev Square := Fin 16 → UInt32

/-- Moves the bits of a word `n` places up; those that fall off come in below. -/
def rotate (x : UInt32) (n : Nat) : UInt32 :=
  ⟨x.toBitVec.rotateLeft n⟩

/-- Additions, exclusive ors and rotations of four words. -/
def quarterRound (a b c d : UInt32) : UInt32 × UInt32 × UInt32 × UInt32 :=
  let a := a + b
  let d := rotate (d ^^^ a) 16
  let c := c + d
  let b := rotate (b ^^^ c) 12
  let a := a + b
  let d := rotate (d ^^^ a) 8
  let c := c + d
  let b := rotate (b ^^^ c) 7
  (a, b, c, d)

namespace Square

/-- A quarter round on the words at four places. -/
def quarter (s : Square) (i j k l : Fin 16) : Square :=
  let (a, b, c, d) := quarterRound (s i) (s j) (s k) (s l)
  fun m => if m = i then a else if m = j then b else if m = k then c else if m = l then d else s m

def columns (s : Square) : Square :=
  (((s.quarter 0 4 8 12).quarter 1 5 9 13).quarter 2 6 10 14).quarter 3 7 11 15

def diagonals (s : Square) : Square :=
  (((s.quarter 0 5 10 15).quarter 1 6 11 12).quarter 2 7 8 13).quarter 3 4 9 14

def doubleRound (s : Square) : Square :=
  s.columns.diagonals

/-- The words of a block: those it starts from, added to what ten double rounds make of them. -/
def mixed (s : Square) : Square :=
  fun i => (doubleRound^[10] s) i + s i

/-- The words a block starts from: four that spell a constant, eight of the key, the number of the
block, and three of the nonce. -/
def initial (key nonce : Bytes) (counter : Nat) : Square := fun i =>
  if i.val < 4 then Bytes.wordAt (Bytes.ofString "expand 32-byte k") i
  else if i.val < 12 then Bytes.wordAt key (i - 4)
  else if i.val = 12 then UInt32.ofNat counter
  else Bytes.wordAt nonce (i - 13)

/-- The words of a square in order. -/
def words (s : Square) : List UInt32 :=
  List.ofFn s

/-- The square of sixteen words. -/
def ofWords (ws : List UInt32) : Square :=
  fun i => ws.getD i 0

end Square

theorem rounds_eq (n : Nat) (s : Square) :
    rounds n (s 0) (s 1) (s 2) (s 3) (s 4) (s 5) (s 6) (s 7) (s 8) (s 9) (s 10) (s 11) (s 12)
      (s 13) (s 14) (s 15) = Square.words (Square.doubleRound^[n] s) := by
  induction n generalizing s with
  | zero => rfl
  | succ n ih =>
    rw [Function.iterate_succ_apply, ← ih]
    rfl

theorem mix_eq {ws : List UInt32} (h : ws.length = 16) :
    mix ws = (Square.ofWords ws).mixed.words := by
  match ws, h with
  | [x0, x1, x2, x3, x4, x5, x6, x7, x8, x9, x10, x11, x12, x13, x14, x15], _ =>
    have hRounds := rounds_eq 10
      (Square.ofWords [x0, x1, x2, x3, x4, x5, x6, x7, x8, x9, x10, x11, x12, x13, x14, x15])
    rw [mix]
    exact congrArg (List.zipWith (· + ·) · _) hRounds

/-! ## The first words -/

variable {key nonce : Bytes}

theorem length_start (hKey : key.length = 32) (hNonce : nonce.length = 12) (counter : UInt32) :
    (start key counter nonce).length = 16 := by
  simp [start, Bytes.length_words32LE, hKey, hNonce]

theorem ofWords_start (hKey : key.length = 32) (hNonce : nonce.length = 12) (counter : Nat) :
    Square.ofWords (start key (UInt32.ofNat counter) nonce) =
      Square.initial key nonce counter := by
  have hConstants : ([0x61707865, 0x3320646e, 0x79622d32, 0x6b206574] : List UInt32) =
      (List.range 4).map (Bytes.wordAt (Bytes.ofString "expand 32-byte k")) := by decide +kernel
  have hKeyWords : (Bytes.words32LE key).length = 8 := by
    rw [Bytes.length_words32LE, hKey]
  funext i
  have hi := i.isLt
  rw [Square.ofWords, Square.initial, List.getD_eq_getElem?_getD, start, hConstants,
    List.append_assoc]
  split
  · next h =>
    rw [List.getElem?_append_left (by simpa using h), List.getElem?_map, List.getElem?_range h]
    rfl
  · next hConstant =>
    rw [List.getElem?_append_right (by simpa using hConstant), List.length_map, List.length_range]
    split
    · next h =>
      rw [List.getElem?_append_left (by omega), Bytes.getElem?_words32LE (by omega)]
      rfl
    · next hLeft =>
      rw [List.getElem?_append_right (by omega), hKeyWords]
      split
      · next h =>
        rw [h]
        rfl
      · next h =>
        have hPlace : i.val - 4 - 8 = i.val - 13 + 1 := by omega
        rw [hPlace, List.getElem?_cons_succ, Bytes.getElem?_words32LE (by omega)]
        rfl

/-! ## Bytes -/

/-- Byte `i` of the keystream: the word it is in, and its place there.  The number of its block is
counted in 32 bits. -/
def streamByte (key nonce : Bytes) (i : Nat) : UInt8 :=
  let word := (Square.initial key nonce (i / 64)).mixed ⟨i % 64 / 4, by omega⟩
  UInt8.ofNat (word.toNat / 256 ^ (i % 4))

theorem getElem?_block (hKey : key.length = 32) (hNonce : nonce.length = 12) {counter i : Nat}
    (hi : i < 64) :
    (block key nonce counter)[i]? = some (streamByte key nonce (64 * counter + i)) := by
  have hCounter : (64 * counter + i) / 64 = counter := by omega
  have hPlace : (64 * counter + i) % 64 = i := by omega
  have hInner : (64 * counter + i) % 4 = i % 4 := by omega
  have hWord : i / 4 < 16 := by omega
  rw [block, mix_eq (length_start hKey hNonce _), ofWords_start hKey hNonce,
    getElem?_flatMap_of_length (by decide : 0 < 4) (fun _ => rfl),
    Square.words, List.getElem?_ofFn, dif_pos hWord, Option.bind_some,
    Bytes.getElem?_le32 _ (Nat.mod_lt _ (by decide))]
  simp only [streamByte, hCounter, hPlace, hInner]

theorem getElem?_keystream (hKey : key.length = 32) (hNonce : nonce.length = 12) {blocks i : Nat}
    (hi : i < blocks * 64) : (keystream key nonce blocks)[i]? = some (streamByte key nonce i) := by
  have hBlock : i / 64 < blocks := by omega
  rw [keystream, getElem?_flatMap_of_length (by decide : 0 < 64) (length_block key nonce),
    List.getElem?_range hBlock, Option.bind_some,
    getElem?_block hKey hNonce (Nat.mod_lt _ (by decide)), Nat.div_add_mod]

end ChaCha20

end SshKeys
