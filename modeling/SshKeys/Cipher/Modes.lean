import SshKeys.Chunks
import SshKeys.Cipher.Aes

/-!
# Modes of operation

Counter mode, cipher block chaining and Galois/counter mode around a function on
blocks of sixteen bytes.
-/

namespace SshKeys

namespace Ctr

/-- The encrypted counter blocks from `counter` on; the counter is 128 bits wide. -/
def keystream (f : Bytes → Bytes) (counter blocks : Nat) : Bytes :=
  (List.range blocks).flatMap fun i => f (Bytes.ofNat 16 (counter + i))

/-- Adds the keystream.  Doing it twice gives the data back. -/
def apply (f : Bytes → Bytes) (counter : Nat) (data : Bytes) : Bytes :=
  Bytes.xor data (keystream f counter ((data.length + 15) / 16))

end Ctr

namespace Cbc

/-- Decrypts block by block; each result is added to the ciphertext block before it. -/
def decryptBlocks (f : Bytes → Bytes) : (last : Bytes) → List Bytes → Bytes
  | _, [] => []
  | last, c :: rest => Bytes.xor (f c) last ++ decryptBlocks f c rest

def decrypt (f : Bytes → Bytes) (iv data : Bytes) : Bytes :=
  decryptBlocks f iv (chunks 16 data)

/-- Takes off 1 to 16 bytes that each hold their number. -/
def unpad? (data : Bytes) : Option Bytes :=
  match data.getLast? with
  | none => none
  | some n =>
    let keep := data.length - n.toNat
    if 1 ≤ n.toNat ∧ n.toNat ≤ 16 ∧ n.toNat ≤ data.length ∧ (data.drop keep).all (· == n) then
      some (data.take keep)
    else none

end Cbc

namespace Gcm

/-- Halves an element of the field of 2 ^ 128 elements, most significant bit first. -/
def halve (hi lo : UInt64) : UInt64 × UInt64 :=
  let carry : UInt64 := if lo &&& 1 = 0 then 0 else 0xe100000000000000
  (hi >>> 1 ^^^ carry, lo >>> 1 ||| hi <<< 63)

/-- The product of the field, over the bits of the first factor. -/
def mul (xhi xlo : UInt64) : (bits : Nat) → (vhi vlo zhi zlo : UInt64) → UInt64 × UInt64
  | 0, _, _, zhi, zlo => (zhi, zlo)
  | n + 1, vhi, vlo, zhi, zlo =>
    let bit := if 64 ≤ n then xhi >>> (UInt64.ofNat (n - 64)) else xlo >>> (UInt64.ofNat n)
    let (whi, wlo) := halve vhi vlo
    if bit &&& 1 = 0 then mul xhi xlo n whi wlo zhi zlo
    else mul xhi xlo n whi wlo (zhi ^^^ vhi) (zlo ^^^ vlo)

def halves (b : Bytes) : UInt64 × UInt64 :=
  match Bytes.words64 b with
  | hi :: lo :: _ => (hi, lo)
  | _ => (0, 0)

/-- The universal hash of the blocks under the key `h`. -/
def hash (h : Bytes) (blocks : List Bytes) : Bytes :=
  let (hhi, hlo) := halves h
  let (yhi, ylo) := blocks.foldl
    (fun (yhi, ylo) b =>
      let (bhi, blo) := halves (b ++ Bytes.zeros (16 - b.length))
      mul (yhi ^^^ bhi) (ylo ^^^ blo) 128 hhi hlo 0 0)
    (0, 0)
  Bytes.be64 yhi ++ Bytes.be64 ylo

/-- The counter part is 32 bits wide and starts at one for a nonce of twelve bytes. -/
def counterBlock (nonce : Bytes) (i : Nat) : Bytes :=
  nonce ++ Bytes.ofNat 4 i

def apply (f : Bytes → Bytes) (nonce data : Bytes) : Bytes :=
  Bytes.xor data ((List.range ((data.length + 15) / 16)).flatMap fun i => f (counterBlock nonce (i + 2)))

/-- The tag of a ciphertext that carries no further data. -/
def tag (f : Bytes → Bytes) (nonce ciphertext : Bytes) : Bytes :=
  let lengths := Bytes.zeros 8 ++ Bytes.ofNat 8 (8 * ciphertext.length)
  Bytes.xor (hash (f (Bytes.zeros 16)) (chunks 16 ciphertext ++ [lengths]))
    (f (counterBlock nonce 1))

end Gcm

end SshKeys
