import SshKeys.Document.Import
import SshKeys.Proofs.Document

/-!
# Documents of five families

A document is tried for each family of keys in turn, and the first family that
accepts it decides.  Every family asks for an identifier of its own
(`Pkcs8.Family.algorithm_of_attempt`), whatever follows it in the document, so that
**the order of the attempts makes no difference** (`Pkcs8.family_detection`).  For EC
the identifier includes the curve; the key behind it may be one of several curves.
-/

namespace SshKeys

/-- The key algorithm an identifier names, the curve being in the parameters. -/
def Der.AlgorithmId.keyAlgorithm? (a : Der.AlgorithmId) : Option Algorithm :=
  if a.name = ObjectId.ed25519 then some .ed25519
  else if a.name = ObjectId.rsa then some .rsa
  else if a.name = ObjectId.ec then
    (NistCurve.all.find? fun c => a.parameters = some (Der.objectIdTag, ObjectId.curve c)).map
      .ecdsa
  else none

namespace Pkcs8

/-- The families a document is tried for. -/
inductive Family where
  | ed25519
  | rsa
  | ecdsa (curve : NistCurve)
  deriving DecidableEq

namespace Family

/-- All of them, in the order in which they are tried. -/
def all : List Family :=
  [ed25519, rsa] ++ NistCurve.all.map ecdsa

theorem mem_all (f : Family) : f ∈ all := by
  cases f with
  | ed25519 => decide
  | rsa => decide
  | ecdsa curve => cases curve <;> decide

def algorithm : Family → Algorithm
  | ed25519 => .ed25519
  | rsa => .rsa
  | ecdsa curve => .ecdsa curve

/-- The identifier a family asks for. -/
def identifier : Family → Der.AlgorithmId
  | ed25519 => ⟨ObjectId.ed25519, none⟩
  | rsa => ⟨ObjectId.rsa, some (Der.nullTag, [])⟩
  | ecdsa curve => ⟨ObjectId.ec, some (Der.objectIdTag, ObjectId.curve curve)⟩

theorem keyAlgorithm?_identifier (f : Family) : f.identifier.keyAlgorithm? = some f.algorithm := by
  cases f with
  | ed25519 => decide
  | rsa => decide
  | ecdsa curve => cases curve <;> decide

theorem algorithm_inj {f g : Family} (h : f.algorithm = g.algorithm) : f = g := by
  cases f <;> cases g <;> cases h <;> rfl

theorem identifier_inj {f g : Family} (h : f.identifier = g.identifier) : f = g := by
  have hNames := f.keyAlgorithm?_identifier
  rw [h, g.keyAlgorithm?_identifier] at hNames
  exact (algorithm_inj (Option.some_inj.1 hNames)).symm

end Family

/-! ## One attempt -/

variable {k : Pkcs8} {f g : Family} {r r' : Except Failure KeyPair} {pair : KeyPair}
  {document : Bytes}

namespace Family

/-- What a family makes of a document, if it accepts it.  RSA numbers that are accepted give no
pair when their factors have a common divisor. -/
def attempt (k : Pkcs8) : Family → Option (Except Failure KeyPair)
  | ed25519 => k.seed?.map fun seed => .ok (KeyPair.ofSeed seed)
  | rsa => k.rsa?.map KeyPair.ofRsa
  | ecdsa curve => (k.scalar? curve).map fun d => .ok (KeyPair.ofScalar curve d)

/-- **A family accepts no identifier but its own.** -/
theorem algorithm_of_attempt (h : f.attempt k = some r) : k.algorithm = f.identifier := by
  cases f with
  | ed25519 =>
    obtain ⟨seed, hSeed, -⟩ := Option.map_eq_some_iff.1 h
    rw [seed?] at hSeed
    split at hSeed
    · split at hSeed
      · next hOwn => exact hOwn.1
      · cases hSeed
    · cases hSeed
  | rsa =>
    obtain ⟨numbers, hNumbers, -⟩ := Option.map_eq_some_iff.1 h
    rw [rsa?] at hNumbers
    split at hNumbers
    · next hOwn => exact hOwn
    · cases hNumbers
  | ecdsa curve =>
    obtain ⟨d, hScalar, -⟩ := Option.map_eq_some_iff.1 h
    rw [scalar?] at hScalar
    split at hScalar
    · next hOwn => exact hOwn
    · cases hScalar

/-- The pair is one of the family. -/
theorem algorithm_of_attempt_ok (h : f.attempt k = some (.ok pair)) :
    pair.algorithm = f.algorithm := by
  cases f with
  | ed25519 =>
    obtain ⟨seed, -, hPair⟩ := Option.map_eq_some_iff.1 h
    cases hPair
    rfl
  | rsa =>
    obtain ⟨numbers, -, hPair⟩ := Option.map_eq_some_iff.1 h
    rw [KeyPair.ofRsa] at hPair
    split at hPair
    · cases hPair
      rfl
    · cases hPair
  | ecdsa curve =>
    obtain ⟨d, -, hPair⟩ := Option.map_eq_some_iff.1 h
    cases hPair
    rfl

/-- What a family makes of bytes. -/
def ofDocument? (f : Family) (document : Bytes) : Option (Except Failure KeyPair) :=
  read? document >>= f.attempt

theorem ofDocument?_eq_some_iff : f.ofDocument? document = some r ↔
    ∃ k, read? document = some k ∧ f.attempt k = some r :=
  Option.bind_eq_some_iff

/-- **No two families accept the same bytes.** -/
theorem eq_of_ofDocument? (hf : f.ofDocument? document = some r)
    (hg : g.ofDocument? document = some r') : f = g := by
  obtain ⟨k, hRead, hOwn⟩ := ofDocument?_eq_some_iff.1 hf
  obtain ⟨k', hRead', hOther⟩ := ofDocument?_eq_some_iff.1 hg
  rw [hRead] at hRead'
  cases hRead'
  refine identifier_inj ?_
  rw [← algorithm_of_attempt hOwn, algorithm_of_attempt hOther]

end Family

/-! ## Attempts in turn -/

/-- No family accepts the bytes. -/
def noFamily : Failure :=
  .unsupportedAlgorithm "алгоритм ключа PKCS#8 не поддерживается"

/-- What the first family that accepts the bytes makes of them. -/
def firstOf (order : List Family) (document : Bytes) : Except Failure KeyPair :=
  (order.findSome? (·.ofDocument? document)).getD (.error noFamily)

/-- Where no family is left out, the one that accepts the bytes is found. -/
theorem findSome?_ofDocument?_eq_some_iff {order : List Family} (hOrder : ∀ f, f ∈ order) :
    order.findSome? (·.ofDocument? document) = some r ↔
      ∃ f : Family, f.ofDocument? document = some r := by
  constructor
  · intro h
    obtain ⟨f, -, hf⟩ := List.exists_of_findSome?_eq_some h
    exact ⟨f, hf⟩
  · rintro ⟨f, hf⟩
    have hSome : (order.findSome? (·.ofDocument? document)).isSome = true :=
      List.findSome?_isSome_iff.2 ⟨f, hOrder f, by rw [hf]; rfl⟩
    obtain ⟨r', hFound⟩ := Option.isSome_iff_exists.1 hSome
    obtain ⟨g, -, hg⟩ := List.exists_of_findSome?_eq_some hFound
    rw [Family.eq_of_ofDocument? hf hg, hg] at hf
    rw [hFound, hf]

theorem firstOf_congr {order order' : List Family} (h : ∀ f, f ∈ order) (h' : ∀ f, f ∈ order') :
    firstOf order document = firstOf order' document := by
  rw [firstOf, firstOf]
  congr 1
  refine Option.ext fun r => ?_
  rw [findSome?_ofDocument?_eq_some_iff h, findSome?_ofDocument?_eq_some_iff h']

/-- Bytes that are no document are accepted by no family. -/
theorem firstOf_of_read?_eq_none (h : read? document = none) (order : List Family) :
    firstOf order document = .error noFamily := by
  have hNone : order.findSome? (·.ofDocument? document) = none :=
    List.findSome?_eq_none_iff.2 fun f _ => by rw [Family.ofDocument?, h]; rfl
  rw [firstOf, hNone]
  rfl

theorem findSome?_ecdsa (k : Pkcs8) :
    (NistCurve.all.map Family.ecdsa).findSome? (·.attempt k) =
      (KeyPair.ofScalarOn? k.scalar?).map .ok := by
  rw [KeyPair.ofScalarOn?, List.findSome?_map, List.map_findSome?]
  congr 1
  funext curve
  rw [Function.comp, Function.comp, Option.map_map]
  rfl

/-- A document that was read is tried for the families in their own order. -/
theorem firstOf_all (h : read? document = some k) :
    firstOf Family.all document = KeyPair.ofPkcs8 k := by
  have hAttempt : (fun f : Family => f.ofDocument? document) = (·.attempt k) := by
    funext f
    rw [Family.ofDocument?, h]
    rfl
  rw [firstOf, hAttempt, Family.all, List.findSome?_append, findSome?_ecdsa, KeyPair.ofPkcs8]
  simp only [List.findSome?_cons, List.findSome?_nil, Family.attempt]
  cases hSeed : k.seed? with
  | some seed => rfl
  | none =>
    cases hRsa : k.rsa? with
    | some numbers => rfl
    | none => cases hScalar : KeyPair.ofScalarOn? k.scalar? <;> rfl

/-- The algorithm of a pair is the one the identifier of the document names. -/
theorem keyAlgorithm?_of_firstOf {order : List Family} (h : firstOf order document = .ok pair) :
    ∃ k, read? document = some k ∧ k.algorithm.keyAlgorithm? = some pair.algorithm := by
  rw [firstOf] at h
  cases hFound : order.findSome? (·.ofDocument? document) with
  | none =>
    rw [hFound] at h
    cases h
  | some r =>
    rw [hFound, Option.getD_some] at h
    obtain ⟨f, -, hf⟩ := List.exists_of_findSome?_eq_some hFound
    obtain ⟨k, hRead, hAttempt⟩ := Family.ofDocument?_eq_some_iff.1 hf
    rw [h] at hAttempt
    refine ⟨k, hRead, ?_⟩
    rw [Family.algorithm_of_attempt hAttempt, Family.keyAlgorithm?_identifier,
      Family.algorithm_of_attempt_ok hAttempt]

/-- **The family of a document does not depend on the order of attempts.**  At most one family
accepts the bytes; all orders that leave out no family come to the same result, which is the key
of the document, if the bytes are one; and the pair is of the algorithm and the curve that the
document names. -/
theorem family_detection (document : Bytes) :
    (∀ f g : Family, (f.ofDocument? document).isSome = true →
      (g.ofDocument? document).isSome = true → f = g) ∧
    (∀ order : List Family, (∀ f, f ∈ order) →
      firstOf order document = firstOf Family.all document) ∧
    (∀ k, read? document = some k → firstOf Family.all document = KeyPair.ofPkcs8 k) ∧
    (read? document = none → firstOf Family.all document = .error noFamily) ∧
    ∀ order pair, firstOf order document = .ok pair →
      ∃ k, read? document = some k ∧ k.algorithm.keyAlgorithm? = some pair.algorithm := by
  refine ⟨fun f g hf hg => ?_, fun order hOrder => firstOf_congr hOrder Family.mem_all,
    fun k => firstOf_all, fun hNone => firstOf_of_read?_eq_none hNone _,
    fun order pair => keyAlgorithm?_of_firstOf⟩
  obtain ⟨r, hr⟩ := Option.isSome_iff_exists.1 hf
  obtain ⟨r', hr'⟩ := Option.isSome_iff_exists.1 hg
  exact Family.eq_of_ofDocument? hr hr'

end Pkcs8

end SshKeys
