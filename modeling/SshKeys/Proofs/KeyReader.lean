import SshKeys.Key.Reader
import SshKeys.Proofs.Wire

/-!
# Reading key material back

Four views of a reader of key material.

* `Stable`: what it takes off the front is all its result depends on.  It reads
  the same wherever these bytes stand, also inside further strings.
* `Framed`: the case of bytes in memory, with anything behind them.
* `Yields r b a`: from memory, `r` takes `b` off the front and gives `a`.
* `Refuses r b e`: from memory, `r` fails with `e` on anything that begins with `b`.

`Stable` and `Yields` are closed under sequences and under `nested`, and the small readers
have them, so the readers of whole keys have them by their shape.
-/

namespace SshKeys

namespace KeyInput

/-- The same open strings over bytes in memory. -/
def inMemory (i : KeyInput) (b : Bytes) : KeyInput :=
  { source := .memory, bytes := b, limits := i.limits }

theorem skip_skip (i : KeyInput) (m n : Nat) : (i.skip m).skip n = i.skip (m + n) := by
  simp only [skip, List.drop_drop, List.map_map]
  congr 1
  refine List.map_congr_left fun l _ => ?_
  simp only [Function.comp_apply]
  omega

theorem skip_zero (i : KeyInput) : i.skip 0 = i := by
  simp [skip]

theorem ofBytes_of_skip {j : KeyInput} {b : Bytes} {n : Nat} (h : j = (ofBytes b).skip n) :
    j = ofBytes j.bytes := by
  rw [h]
  rfl

/-- Reading up to `rest` never meets the end of armored text, where nothing can be read. -/
def Reaches (i : KeyInput) (rest : Bytes) : Prop :=
  i.source = .memory ∨ rest ≠ []

theorem Reaches.append {i : KeyInput} {rest : Bytes} (h : i.Reaches rest) (c : Bytes) :
    i.Reaches (c ++ rest) :=
  h.imp_right (List.append_ne_nil_of_right_ne_nil c)

theorem Reaches.isFinished_append {i : KeyInput} {c rest : Bytes} (h : i.Reaches rest)
    (hBytes : i.bytes = c ++ rest) : i.isFinished = false := by
  rcases h with hSource | hNe
  · simp [isFinished, hSource]
  · simp [isFinished, hBytes, hNe]

end KeyInput

namespace KeyReader

open StateExcept (bind_eq_ok_iff refuse_eq_ok_iff accept_eq_ok_iff)

variable {α β : Type} {r : KeyReader α} {f : α → KeyReader β} {i j : KeyInput} {a : α} {b : β}

/-! ## Steps -/

theorem take_eq_ok_iff {n : Nat} {b : Bytes} :
    take n i = .ok (b, j) ↔ (∀ l ∈ i.limits, n ≤ l) ∧ n ≤ i.bytes.length ∧ i.isFinished = false ∧
      b = i.bytes.take n ∧ j = i.skip n := by
  rw [take]
  by_cases hLimits : i.limits.any (· < n) = true
  · rw [if_pos hLimits]
    constructor
    · rintro ⟨⟩
    · rintro ⟨h, -⟩
      obtain ⟨l, hl, hlt⟩ := List.any_eq_true.1 hLimits
      have := h l hl
      simp only [decide_eq_true_eq] at hlt
      omega
  · have hAll : ∀ l ∈ i.limits, n ≤ l := fun l hl => by
      by_contra hlt
      exact hLimits (List.any_eq_true.2 ⟨l, hl, by simpa using hlt⟩)
    rw [if_neg hLimits]
    by_cases hShort : i.bytes.length < n ∨ i.isFinished = true
    · rw [if_pos hShort]
      constructor
      · rintro ⟨⟩
      · rintro ⟨-, hn, hEnd, -⟩
        rcases hShort with h | h
        · omega
        · rw [hEnd] at h
          cases h
    · rw [if_neg hShort]
      have hEnd : i.isFinished = false := by
        cases h : i.isFinished
        · rfl
        · exact absurd (.inr h) hShort
      constructor
      · rintro ⟨⟩
        exact ⟨hAll, by omega, hEnd, rfl, rfl⟩
      · rintro ⟨-, -, -, rfl, rfl⟩
        rfl

theorem length_of_take {n : Nat} {b : Bytes} (h : take n i = .ok (b, j)) : b.length = n := by
  obtain ⟨-, hn, -, rfl, -⟩ := take_eq_ok_iff.1 h
  exact List.length_take_of_le hn

theorem count_eq_ok_iff {n : Nat} : count i = .ok (n, j) ↔
    ∃ b, take 4 i = .ok (b, j) ∧ n = Bytes.toNat b ∧ n ≤ maxLength := by
  rw [count, bind_eq_ok_iff]
  constructor
  · rintro ⟨b, k, hb, h⟩
    obtain ⟨hn, h⟩ := refuse_eq_ok_iff.1 h
    cases h
    exact ⟨b, hb, rfl, by omega⟩
  · rintro ⟨b, hb, rfl, hn⟩
    exact ⟨b, j, hb, refuse_eq_ok_iff.2 ⟨by omega, rfl⟩⟩

/-- Opening a string, reading inside it, and closing it. -/
theorem nested_eq_ok_iff : nested r i = .ok (a, j) ↔ ∃ n k l, count i = .ok (n, k) ∧
    r { k with limits := n :: k.limits } = .ok (a, l) ∧ j = { l with limits := l.limits.tail } := by
  rw [nested, bind_eq_ok_iff]
  constructor
  · rintro ⟨n, k, hn, h⟩
    obtain ⟨_, k', hk, h⟩ := bind_eq_ok_iff.1 h
    cases hk
    obtain ⟨a', l, hr, h⟩ := bind_eq_ok_iff.1 h
    obtain ⟨_, l', hl, h⟩ := bind_eq_ok_iff.1 h
    cases hl
    cases h
    exact ⟨n, k, l, hn, hr, rfl⟩
  · rintro ⟨n, k, l, hn, hr, rfl⟩
    exact ⟨n, k, hn, bind_eq_ok_iff.2 ⟨_, _, rfl, bind_eq_ok_iff.2 ⟨a, l, hr, rfl⟩⟩⟩

theorem bytes_of_take {n : Nat} {b : Bytes} (h : take n i = .ok (b, j)) :
    i.bytes = b ++ j.bytes ∧ b.length = n ∧ j = i.skip n := by
  have hLength := length_of_take h
  obtain ⟨-, -, -, rfl, rfl⟩ := take_eq_ok_iff.1 h
  exact ⟨(List.take_append_drop n i.bytes).symm, hLength, rfl⟩

theorem bytes_of_word {n : Nat} (h : word i = .ok (n, j)) :
    ∃ w : UInt32, n = w.toNat ∧ i.bytes = Bytes.be32 w ++ j.bytes ∧ j = i.skip 4 := by
  obtain ⟨b, k, hTake, hPure⟩ := bind_eq_ok_iff.1 h
  cases hPure
  obtain ⟨hBytes, hLength, hSkip⟩ := bytes_of_take hTake
  have hWord := Field.be32_wordOf hLength
  refine ⟨Field.wordOf b, ?_, by rw [hWord, hBytes], hSkip⟩
  rw [← Bytes.toNat_be32, hWord]

theorem bytes_of_count {n : Nat} (h : count i = .ok (n, j)) :
    i.bytes = Bytes.be32 (UInt32.ofNat n) ++ j.bytes ∧ n ≤ maxLength ∧ j = i.skip 4 := by
  obtain ⟨b, hTake, rfl, hMax⟩ := count_eq_ok_iff.1 h
  obtain ⟨w, hw, hBytes, hSkip⟩ := bytes_of_word (bind_eq_ok_iff.2 ⟨b, j, hTake, rfl⟩)
  rw [hw, UInt32.ofNat_toNat]
  exact ⟨hBytes, hw ▸ hMax, hSkip⟩

theorem bytes_of_field {b : Bytes} (h : field i = .ok (b, j)) :
    i.bytes = Field.putString b ++ j.bytes ∧ b.length ≤ maxLength ∧
      j = i.skip (Field.putString b).length := by
  obtain ⟨n, k, l, hCount, hRead, rfl⟩ := nested_eq_ok_iff.1 h
  obtain ⟨m, k', hRemaining, hTake⟩ := bind_eq_ok_iff.1 hRead
  cases hRemaining
  obtain ⟨hFront, hMax, rfl⟩ := bytes_of_count hCount
  obtain ⟨hBytes, hLength, rfl⟩ := bytes_of_take hTake
  have hEq : n = b.length := hLength.symm
  subst hEq
  have hPut : i.bytes = Field.putString b ++ ((i.skip 4).skip b.length).bytes := by
    rw [hFront, Field.putString, List.append_assoc]
    exact congrArg (Bytes.be32 (UInt32.ofNat b.length) ++ ·) hBytes
  refine ⟨hPut, hMax, ?_⟩
  rw [Field.length_putString, Field.stringLength, ← KeyInput.skip_skip]
  rfl

theorem length_le_of_nested {b rest : Bytes}
    (h : nested r i = .ok (a, j)) (hBytes : i.bytes = Field.putString b ++ rest)
    (hLength : b.length < 2 ^ 32) : b.length ≤ maxLength := by
  obtain ⟨n, k, l, hCount, -, -⟩ := nested_eq_ok_iff.1 h
  obtain ⟨c, hTake, rfl, hMax⟩ := count_eq_ok_iff.1 hCount
  obtain ⟨-, -, -, rfl, -⟩ := take_eq_ok_iff.1 hTake
  rw [hBytes, Field.putString, List.append_assoc, List.take_left' (Bytes.length_be32 _),
    Bytes.toNat_be32, Field.toNat_ofNat_length hLength] at hMax
  exact hMax

theorem field_eq_ok {b : Bytes} (h : field i = .ok (b, j)) : b.length ≤ maxLength :=
  (bytes_of_field h).2.1

theorem fieldWithin_eq_ok {limit : Nat} {b : Bytes} (h : fieldWithin limit i = .ok (b, j)) :
    b.length ≤ limit ∧ b.length ≤ maxLength := by
  obtain ⟨n, k, l, hn, hr, -⟩ := nested_eq_ok_iff.1 h
  obtain ⟨m, k', hm, ht⟩ := bind_eq_ok_iff.1 hr
  cases hm
  obtain ⟨hLimit, ht⟩ := refuse_eq_ok_iff.1 ht
  obtain ⟨_, -, -, hMax⟩ := count_eq_ok_iff.1 hn
  rw [length_of_take ht]
  exact ⟨not_lt.1 hLimit, hMax⟩

theorem utf8_eq_ok_iff {b : Bytes} {s : String} :
    utf8 b i = .ok (s, j) ↔ b = Bytes.ofString s ∧ j = i := by
  rw [utf8, ← Bytes.toString?_eq_some_iff]
  cases Bytes.toString? b with
  | none =>
    constructor
    · rintro ⟨⟩
    · rintro ⟨⟨⟩, -⟩
  | some s' =>
    constructor
    · rintro ⟨⟩
      exact ⟨rfl, rfl⟩
    · rintro ⟨⟨⟩, rfl⟩
      rfl

theorem bytes_of_text {s : String} (h : text i = .ok (s, j)) :
    i.bytes = Field.putText s ++ j.bytes ∧ j = i.skip (Field.putText s).length := by
  obtain ⟨b, k, hField, hText⟩ := bind_eq_ok_iff.1 h
  obtain ⟨rfl, rfl⟩ := utf8_eq_ok_iff.1 hText
  obtain ⟨hBytes, -, hSkip⟩ := bytes_of_field hField
  exact ⟨hBytes, hSkip⟩

theorem text_eq_ok {s : String} (h : text i = .ok (s, j)) : s.utf8ByteSize ≤ maxLength := by
  obtain ⟨b, k, hb, hs⟩ := bind_eq_ok_iff.1 h
  obtain ⟨rfl, -⟩ := utf8_eq_ok_iff.1 hs
  rw [← Bytes.length_ofString]
  exact field_eq_ok hb

theorem name_eq_ok {known : String → Option α} (h : name known i = .ok (a, j)) :
    ∃ s, known s = some a ∧ s.utf8ByteSize ≤ maxName := by
  obtain ⟨b, k, hb, h⟩ := bind_eq_ok_iff.1 h
  obtain ⟨s, k', hs, h⟩ := bind_eq_ok_iff.1 h
  obtain ⟨hText, -⟩ := utf8_eq_ok_iff.1 hs
  refine ⟨s, ?_, by rw [← Bytes.length_ofString, ← hText]; exact (fieldWithin_eq_ok hb).1⟩
  cases hk : known s with
  | none =>
    rw [hk] at h
    cases h
  | some a' =>
    rw [hk] at h
    cases h
    rfl

/-- A written integer that a key may hold. -/
def IsInteger (b : Bytes) : Prop :=
  isCanonical b = true ∧ b.length ≤ maxLength

theorem integer_eq_ok {b : Bytes} (h : integer i = .ok (b, j)) : IsInteger b := by
  obtain ⟨b', k, hb, h⟩ := bind_eq_ok_iff.1 h
  obtain ⟨hc, h⟩ := accept_eq_ok_iff.1 h
  cases h
  exact ⟨hc, field_eq_ok hb⟩

/-! ## What is taken is all that counts -/

/-- What `r` takes off the front is all its result depends on.  With `inside`, this is said only
of readers inside an open string, which alone know how much remains of it. -/
def Framed (inside : Bool) (r : KeyReader α) : Prop :=
  ∀ (i j : KeyInput) (a : α), (inside = true → i.limits ≠ []) → r i = .ok (a, j) →
    ∃ used, i.bytes = used ++ j.bytes ∧ j = i.skip used.length ∧
      ∀ rest, r (i.inMemory (used ++ rest)) = .ok (a, (i.skip used.length).inMemory rest)

/-- `r` gives the same wherever the bytes it takes stand, also inside further strings that hold
these bytes. -/
def Stable (inside : Bool) (r : KeyReader α) : Prop :=
  ∀ (i j : KeyInput) (a : α), (inside = true → i.limits ≠ []) → r i = .ok (a, j) →
    ∃ used, i.bytes = used ++ j.bytes ∧ j = i.skip used.length ∧
      ∀ (i' : KeyInput) (rest : Bytes) (outer : List Nat), i'.Reaches rest →
        i'.bytes = used ++ rest → i'.limits = i.limits ++ outer →
        (∀ l ∈ outer, used.length ≤ l) → r i' = .ok (a, i'.skip used.length)

theorem Stable.framed {inside : Bool} (h : Stable inside r) : Framed inside r := by
  intro i j a hi hr
  obtain ⟨used, hBytes, hj, hAll⟩ := h i j a hi hr
  refine ⟨used, hBytes, hj, fun rest => ?_⟩
  have hMemory := hAll (i.inMemory (used ++ rest)) rest [] (.inl rfl) rfl
    (List.append_nil _).symm fun l hl => nomatch hl
  rw [hMemory, KeyInput.skip, KeyInput.inMemory, List.drop_left]
  rfl

/-- Without a step, nothing is taken. -/
theorem stable_of_skip_zero {inside : Bool}
    (h : ∀ i j a, (inside = true → i.limits ≠ []) → r i = .ok (a, j) → j = i ∧
      ∀ (i' : KeyInput) (outer : List Nat), i'.limits = i.limits ++ outer → r i' = .ok (a, i')) :
    Stable inside r := by
  intro i j a hi hr
  obtain ⟨rfl, hAll⟩ := h i j a hi hr
  refine ⟨[], rfl, (j.skip_zero).symm, fun i' rest outer _ _ hLimits _ => ?_⟩
  rw [List.length_nil, i'.skip_zero]
  exact hAll i' outer hLimits

theorem stable_pure {inside : Bool} (a : α) : Stable inside (pure a) := by
  refine stable_of_skip_zero ?_
  rintro i j a' - ⟨⟩
  exact ⟨rfl, fun i' outer _ => rfl⟩

theorem stable_throw {inside : Bool} (e : KeyFault) : Stable inside (throw e : KeyReader α) := by
  rintro i j a' - ⟨⟩

theorem Stable.bind {inside : Bool} (hr : Stable inside r) (hf : ∀ a, Stable inside (f a)) :
    Stable inside (r >>= f) := by
  intro i j b hi h
  obtain ⟨a, k, hra, hfa⟩ := bind_eq_ok_iff.1 h
  obtain ⟨used₁, h₁, rfl, hr'⟩ := hr i k a hi hra
  have hk : inside = true → (i.skip used₁.length).limits ≠ [] := fun hIn => by
    simpa [KeyInput.skip] using hi hIn
  obtain ⟨used₂, h₂, rfl, hf'⟩ := hf a _ j b hk hfa
  refine ⟨used₁ ++ used₂, by rw [h₁, h₂, List.append_assoc], ?_, ?_⟩
  · rw [KeyInput.skip_skip, List.length_append]
  · intro i' rest outer hReaches hBytes hLimits hOuter
    rw [List.append_assoc] at hBytes
    simp only [List.length_append] at hOuter
    have hFirst := hr' i' _ outer (hReaches.append used₂) hBytes hLimits fun l hl => by
      have := hOuter l hl
      omega
    refine bind_eq_ok_iff.2 ⟨a, _, hFirst, ?_⟩
    rw [List.length_append, ← KeyInput.skip_skip]
    refine hf' _ rest (outer.map (· - used₁.length)) hReaches ?_ ?_ ?_
    · simp only [KeyInput.skip, hBytes, List.drop_left]
    · simp only [KeyInput.skip, hLimits, List.map_append]
    · intro l hl
      obtain ⟨l', hl', rfl⟩ := List.mem_map.1 hl
      have := hOuter l' hl'
      omega

theorem stable_refuse {inside : Bool} {c : Prop} [Decidable c] {e : KeyFault}
    {k : Unit → KeyReader α} (hk : Stable inside (k ())) :
    Stable inside (if c then throw e >>= k else k ()) := by
  by_cases hc : c
  · rw [if_pos hc]
    rintro i j a - ⟨⟩
  · rw [if_neg hc]
    exact hk

theorem stable_accept {inside : Bool} {c : Prop} [Decidable c] {e : KeyFault} {k : KeyReader α}
    (hk : Stable inside k) : Stable inside (if c then k else throw e) := by
  by_cases hc : c
  · rw [if_pos hc]
    exact hk
  · rw [if_neg hc]
    exact stable_throw e

theorem stable_lift {inside : Bool} (x : Except KeyFault α) :
    Stable inside (liftM x : KeyReader α) := by
  cases x with
  | error e => exact stable_throw e
  | ok a => exact stable_pure a

theorem stable_take {inside : Bool} (n : Nat) : Stable inside (take n) := by
  rintro i j b - h
  obtain ⟨hLimits, hn, -, rfl, rfl⟩ := take_eq_ok_iff.1 h
  have hLength : (i.bytes.take n).length = n := List.length_take_of_le hn
  refine ⟨i.bytes.take n, (List.take_append_drop n i.bytes).symm, by rw [hLength], ?_⟩
  intro i' rest outer hReaches hBytes hOpen hOuter
  rw [hLength] at hOuter ⊢
  refine take_eq_ok_iff.2 ⟨?_, ?_, hReaches.isFinished_append hBytes, ?_, rfl⟩
  · rw [hOpen]
    exact fun l hl => (List.mem_append.1 hl).elim (hLimits l) (hOuter l)
  · rw [hBytes, List.length_append, hLength]
    omega
  · rw [hBytes, List.take_left' hLength]

theorem stable_count {inside : Bool} : Stable inside count :=
  (stable_take 4).bind fun _ => stable_refuse (stable_pure _)

theorem stable_byte {inside : Bool} : Stable inside byte :=
  (stable_take 1).bind fun _ => stable_pure _

theorem stable_word {inside : Bool} : Stable inside word :=
  (stable_take 4).bind fun _ => stable_pure _

theorem stable_remaining : Stable true remaining := by
  refine stable_of_skip_zero ?_
  rintro i j n hi ⟨⟩
  obtain ⟨l, ls, hl⟩ := List.exists_cons_of_ne_nil (hi rfl)
  refine ⟨rfl, fun i' outer hLimits => ?_⟩
  rw [hl, List.cons_append] at hLimits
  change Except.ok (i'.limits.headD _, i') = .ok (i.limits.headD _, i')
  rw [hLimits, hl, List.headD_cons, List.headD_cons]

/-- A string may be read by a reader that needs to be inside one. -/
theorem Stable.nested {inside : Bool} (hr : Stable true r) : Stable inside (nested r) := by
  intro i j a _ h
  obtain ⟨n, k, l, hn, hr', rfl⟩ := nested_eq_ok_iff.1 h
  -- The count is read outside the string it opens.
  have hStable : Stable false count := stable_count
  obtain ⟨used₁, h₁, rfl, hCount⟩ := hStable i k n (fun h => nomatch h) hn
  obtain ⟨used₂, h₂, rfl, hRead⟩ := hr _ l a (fun _ => List.cons_ne_nil _ _) hr'
  refine ⟨used₁ ++ used₂, ?_, ?_, ?_⟩
  · rw [h₁, List.append_assoc]
    exact congrArg (used₁ ++ ·) h₂
  · rw [List.length_append, ← KeyInput.skip_skip]
    rfl
  · intro i' rest outer hReaches hBytes hLimits hOuter
    rw [List.append_assoc] at hBytes
    simp only [List.length_append] at hOuter
    have hFirst := hCount i' _ outer (hReaches.append used₂) hBytes hLimits fun l hl => by
      have := hOuter l hl
      omega
    refine nested_eq_ok_iff.2 ⟨n, _, _, hFirst, hRead _ rest (outer.map (· - used₁.length))
      hReaches ?_ ?_ ?_, ?_⟩
    · simp only [KeyInput.skip, hBytes, List.drop_left]
    · simp only [KeyInput.skip, hLimits, List.map_append, List.cons_append]
    · intro l hl
      obtain ⟨l', hl', rfl⟩ := List.mem_map.1 hl
      have := hOuter l' hl'
      omega
    · rw [List.length_append, ← KeyInput.skip_skip]
      rfl

theorem stable_field {inside : Bool} : Stable inside field :=
  (stable_remaining.bind fun _ => stable_take _).nested

theorem stable_fieldWithin {inside : Bool} (limit : Nat) : Stable inside (fieldWithin limit) :=
  (stable_remaining.bind fun _ => stable_refuse (stable_take _)).nested

theorem stable_utf8 {inside : Bool} (b : Bytes) : Stable inside (utf8 b) := by
  rw [utf8]
  cases Bytes.toString? b with
  | none => exact stable_throw _
  | some s => exact stable_pure s

theorem stable_text {inside : Bool} : Stable inside text :=
  stable_field.bind stable_utf8

theorem stable_name {inside : Bool} (known : String → Option α) : Stable inside (name known) := by
  refine (stable_fieldWithin _).bind fun b => (stable_utf8 b).bind fun s => ?_
  cases known s with
  | none => exact stable_throw _
  | some a => exact stable_pure a

theorem stable_integer {inside : Bool} : Stable inside integer :=
  stable_field.bind fun _ => stable_accept (stable_pure _)

/-! ## What a written form gives -/

/-- `r` takes `b` off the front and gives `a`. -/
def Yields (r : KeyReader α) (b : Bytes) (a : α) : Prop :=
  ∀ (i : KeyInput) (rest : Bytes), i.Reaches rest → i.bytes = b ++ rest →
    (∀ l ∈ i.limits, b.length ≤ l) → r i = .ok (a, i.skip b.length)

/-- The same inside a string that holds just `b`. -/
def Fills (r : KeyReader α) (b : Bytes) (a : α) : Prop :=
  ∀ (i : KeyInput) (rest : Bytes), i.Reaches rest → i.bytes = b ++ rest →
    (∀ l ∈ i.limits, b.length ≤ l) → i.limits.head? = some b.length →
      r i = .ok (a, i.skip b.length)

/-- What is read from `b` and to its end is read wherever `b` stands. -/
theorem Stable.yields {c : Bytes} (hr : Stable false r) (h : r (.ofBytes c) = .ok (a, j))
    (hEnd : j.bytes = []) :
    Yields r c a := by
  obtain ⟨used, hUsed, -, hAll⟩ := hr _ j a (fun h => nomatch h) h
  rw [hEnd, List.append_nil] at hUsed
  obtain rfl : c = used := hUsed
  exact fun i rest hReaches hBytes hLimits => hAll i rest i.limits hReaches hBytes rfl hLimits

/-- If `r` succeeds on bytes that begin with `c`, it takes just `c`. -/
theorem Yields.eq_of_ok {c rest : Bytes} {a' : α} (h : Yields r c a) (hStable : Stable false r)
    (hr : r i = .ok (a', j)) (hBytes : i.bytes = c ++ rest)
    (hLimits : ∀ l ∈ i.limits, c.length ≤ l) : a' = a ∧ j = i.skip c.length := by
  obtain ⟨used, hUsed, rfl, hAll⟩ := hStable.framed i j a' (fun h => nomatch h) hr
  have hOwn := h (i.inMemory i.bytes) rest (.inl rfl) hBytes hLimits
  have hFramed := hAll (i.skip used.length).bytes
  rw [← hUsed, hOwn] at hFramed
  obtain ⟨hSame, hState⟩ := Prod.mk.inj (Except.ok.inj hFramed)
  have hDrop : i.bytes.drop c.length = i.bytes.drop used.length := congrArg KeyInput.bytes hState
  have hLeft := congrArg List.length hDrop
  have hFirst := congrArg List.length hBytes
  have hSecond := congrArg List.length hUsed
  simp only [List.length_drop, List.length_append] at hLeft hFirst hSecond
  have hLength : used.length = c.length := by omega
  exact ⟨hSame.symm, by rw [hLength]⟩

/-- What is read from bytes that begin with `c` goes on behind them. -/
theorem Yields.step {a' : α} {c rest : Bytes} (h : Yields r c a)
    (hStable : Stable false r) (hr : r i = .ok (a', j)) (hBytes : i.bytes = c ++ rest)
    (hLimits : i.limits = []) : a' = a ∧ j = { i with bytes := rest } := by
  obtain ⟨hSame, hSkip⟩ := h.eq_of_ok hStable hr hBytes fun l hl => by
    rw [hLimits] at hl
    cases hl
  refine ⟨hSame, ?_⟩
  rw [hSkip, KeyInput.skip, hBytes, hLimits, List.drop_left]
  rfl

theorem Yields.fills {c : Bytes} (h : Yields r c a) : Fills r c a :=
  fun i rest hReaches hBytes hLimits _ => h i rest hReaches hBytes hLimits

theorem yields_pure (a : α) : Yields (pure a) [] a := fun i _ _ _ _ => by
  rw [List.length_nil, i.skip_zero]
  rfl

theorem Yields.bind {c d : Bytes} (hr : Yields r c a) (hf : Yields (f a) d b) :
    Yields (r >>= f) (c ++ d) b := by
  intro i rest hReaches hBytes hLimits
  rw [List.append_assoc] at hBytes
  simp only [List.length_append] at hLimits
  refine bind_eq_ok_iff.2 ⟨a, _, hr i _ (hReaches.append d) hBytes fun l hl => ?_, ?_⟩
  · have := hLimits l hl
    omega
  rw [List.length_append, ← KeyInput.skip_skip]
  refine hf _ rest hReaches ?_ fun l hl => ?_
  · simp only [KeyInput.skip, hBytes, List.drop_left]
  · obtain ⟨l', hl', rfl⟩ := List.mem_map.1 hl
    have := hLimits l' hl'
    omega

/-- The steps after `r` may only check what was read. -/
theorem Yields.check {c : Bytes} (hr : Yields r c a) (hf : Yields (f a) [] b) :
    Yields (r >>= f) c b := by
  have h := hr.bind hf
  rwa [List.append_nil] at h

theorem Yields.map {c : Bytes} (hr : Yields r c a) (g : α → β) :
    Yields (r >>= fun x => pure (g x)) c (g a) :=
  hr.check (yields_pure (g a))

theorem yields_refuse {c : Prop} [Decidable c] {e : KeyFault} {k : Unit → KeyReader α} {d : Bytes}
    (hc : ¬c) (hk : Yields (k ()) d a) : Yields (if c then throw e >>= k else k ()) d a := by
  rwa [if_neg hc]

theorem yields_accept {c : Prop} [Decidable c] {e : KeyFault} {k : KeyReader α} {d : Bytes}
    (hc : c) (hk : Yields k d a) : Yields (if c then k else throw e) d a := by
  rwa [if_pos hc]

theorem yields_take {n : Nat} {c : Bytes} (h : c.length = n) : Yields (take n) c c := by
  subst h
  intro i rest hReaches hBytes hLimits
  exact take_eq_ok_iff.2 ⟨hLimits, by simp [hBytes], hReaches.isFinished_append hBytes,
    by rw [hBytes, List.take_left], rfl⟩

theorem yields_byte (x : UInt8) : Yields byte [x] x :=
  (yields_take (c := [x]) rfl).map fun b => b.headD 0

theorem yields_count {n : Nat} (h : n ≤ maxLength) :
    Yields count (Bytes.be32 (UInt32.ofNat n)) n := by
  have hn : Bytes.toNat (Bytes.be32 (UInt32.ofNat n)) = n := by
    rw [Bytes.toNat_be32]
    have : maxLength = 1048575 := rfl
    exact Field.toNat_ofNat_length (by omega)
  have hStep : Yields count (Bytes.be32 (UInt32.ofNat n))
      (Bytes.toNat (Bytes.be32 (UInt32.ofNat n))) :=
    (yields_take (Bytes.length_be32 _)).check (yields_refuse (by rw [hn]; omega) (yields_pure _))
  rwa [hn] at hStep

/-- A string with the declared length `n` is read by what takes its front part `c`.  What it
declares beyond that is left to be read as what follows. -/
theorem yields_nested {c : Bytes} {n : Nat} (hLe : c.length ≤ n) (hMax : n ≤ maxLength)
    (hr : ∀ (i : KeyInput) (rest : Bytes), i.Reaches rest → i.bytes = c ++ rest →
      (∀ l ∈ i.limits, c.length ≤ l) → i.limits.head? = some n → r i = .ok (a, i.skip c.length)) :
    Yields (nested r) (Bytes.be32 (UInt32.ofNat n) ++ c) a := by
  intro i rest hReaches hBytes hLimits
  rw [List.append_assoc] at hBytes
  simp only [List.length_append, Bytes.length_be32] at hLimits
  have hCount := yields_count hMax i _ (hReaches.append c) hBytes fun l hl => by
    have := hLimits l hl
    rw [Bytes.length_be32]
    omega
  rw [Bytes.length_be32] at hCount
  refine nested_eq_ok_iff.2 ⟨_, _, _, hCount, hr _ rest hReaches ?_ ?_ rfl, ?_⟩
  · simp only [KeyInput.skip, hBytes]
    exact List.drop_left' (Bytes.length_be32 _)
  · intro l hl
    rcases List.mem_cons.1 hl with rfl | hl
    · exact hLe
    · obtain ⟨l', hl', rfl⟩ := List.mem_map.1 hl
      have := hLimits l' hl'
      omega
  · rw [List.length_append, Bytes.length_be32, ← KeyInput.skip_skip]
    rfl

/-- **A string is read back** by a reader that takes all of it. -/
theorem Fills.nested {c : Bytes} (hr : Fills r c a) (hMax : c.length ≤ maxLength) :
    Yields (nested r) (Field.putString c) a :=
  yields_nested le_rfl hMax hr

/-- A string may declare more than is read of it. -/
theorem Yields.nested {c : Bytes} {n : Nat} (hr : Yields r c a) (hLe : c.length ≤ n)
    (hMax : n ≤ maxLength) : Yields (nested r) (Bytes.be32 (UInt32.ofNat n) ++ c) a :=
  yields_nested hLe hMax fun i rest hReaches hBytes hLimits _ => hr i rest hReaches hBytes hLimits

/-- Inside a string that holds just `c`, what remains is its length. -/
theorem fills_remaining {g : Nat → KeyReader α} {c : Bytes} (h : Yields (g c.length) c a) :
    Fills (remaining >>= g) c a := by
  intro i rest hReaches hBytes hLimits hHead
  obtain ⟨ls, hls⟩ := List.head?_eq_some_iff.1 hHead
  refine bind_eq_ok_iff.2 ⟨c.length, i, ?_, h i rest hReaches hBytes hLimits⟩
  simp only [remaining, KeyInput.remaining]
  change Except.ok (i.limits.headD _, i) = _
  rw [hls, List.headD_cons]

theorem yields_field {b : Bytes} (h : b.length ≤ maxLength) :
    Yields field (Field.putString b) b :=
  (fills_remaining (yields_take rfl)).nested h

theorem yields_fieldWithin {b : Bytes} {limit : Nat} (hLimit : b.length ≤ limit)
    (h : b.length ≤ maxLength) : Yields (fieldWithin limit) (Field.putString b) b :=
  (fills_remaining (yields_refuse (by omega) (yields_take rfl))).nested h

theorem yields_utf8 (s : String) : Yields (utf8 (Bytes.ofString s)) [] s := by
  rw [utf8, Bytes.toString?_ofString]
  exact yields_pure s

theorem yields_text {s : String} (h : s.utf8ByteSize ≤ maxLength) :
    Yields text (Field.putText s) s :=
  (yields_field (by rwa [Bytes.length_ofString])).check (yields_utf8 s)

theorem yields_name {known : String → Option α} {s : String} (hKnown : known s = some a)
    (h : s.utf8ByteSize ≤ maxName) : Yields (name known) (Field.putText s) a := by
  have hMax : maxName ≤ maxLength := by decide
  have hLength : (Bytes.ofString s).length ≤ maxName := by rwa [Bytes.length_ofString]
  refine (yields_fieldWithin hLength (hLength.trans hMax)).check ((yields_utf8 s).check ?_)
  rw [hKnown]
  exact yields_pure a

theorem yields_integer {b : Bytes} (h : IsInteger b) : Yields integer (Field.putString b) b :=
  (yields_field h.2).check (yields_accept h.1 (yields_pure b))

/-! ## What is refused -/

/-- `r` fails with `e` on anything that begins with `b`. -/
def Refuses (r : KeyReader α) (b : Bytes) (e : KeyFault) : Prop :=
  ∀ (i : KeyInput) (rest : Bytes), i.Reaches rest → i.bytes = b ++ rest →
    (∀ l ∈ i.limits, b.length ≤ l) → r i = .error e

theorem Refuses.bind {c : Bytes} {e : KeyFault} (hr : Refuses r c e) : Refuses (r >>= f) c e := by
  intro i rest hReaches hBytes hLimits
  exact StateExcept.bind_of_error (hr i rest hReaches hBytes hLimits)

/-- What comes before the refused part is read first. -/
theorem Yields.refuses {c d : Bytes} {e : KeyFault} (hr : Yields r c a) (hf : Refuses (f a) d e) :
    Refuses (r >>= f) (c ++ d) e := by
  intro i rest hReaches hBytes hLimits
  rw [List.append_assoc] at hBytes
  simp only [List.length_append] at hLimits
  have hFirst : r i = .ok (a, i.skip c.length) := by
    refine hr i _ (hReaches.append d) hBytes fun l hl => ?_
    have := hLimits l hl
    omega
  rw [StateExcept.bind_of_ok hFirst]
  refine hf _ rest hReaches ?_ fun l hl => ?_
  · simp only [KeyInput.skip, hBytes, List.drop_left]
  · obtain ⟨l', hl', rfl⟩ := List.mem_map.1 hl
    have := hLimits l' hl'
    omega

/-- What is refused is refused with anything behind it. -/
theorem Refuses.append {c : Bytes} {e : KeyFault} (hr : Refuses r c e) (d : Bytes) :
    Refuses r (c ++ d) e := by
  intro i rest hReaches hBytes hLimits
  rw [List.append_assoc] at hBytes
  refine hr i (d ++ rest) (hReaches.append d) hBytes fun l hl => ?_
  have hLe := hLimits l hl
  rw [List.length_append] at hLe
  omega

theorem refuses_count {n : Nat} (hLong : maxLength < n) (h : n < 2 ^ 32) (rest : Bytes) :
    Refuses count (Bytes.be32 (UInt32.ofNat n) ++ rest) .overflow := by
  have hn : maxLength < Bytes.toNat (Bytes.be32 (UInt32.ofNat n)) := by
    rw [Bytes.toNat_be32, Field.toNat_ofNat_length h]
    exact hLong
  refine (yields_take (Bytes.length_be32 _)).refuses ?_
  rw [if_pos hn]
  intro i more _ _ _
  rfl

/-- A string of a megabyte is refused for its length alone. -/
theorem refuses_nested {b : Bytes} (hLong : maxLength < b.length) (h : b.length < 2 ^ 32) :
    Refuses (nested r) (Field.putString b) .overflow :=
  (refuses_count hLong h b).bind

theorem refuses_integer {b : Bytes} (hLong : maxLength < b.length) (h : b.length < 2 ^ 32) :
    Refuses integer (Field.putString b) .overflow :=
  (refuses_nested hLong h).bind

/-- A number is refused if it is too long, and otherwise what stands behind it decides. -/
theorem refuses_behind_integer {g : Bytes → KeyReader β} {b c : Bytes}
    (hCanonical : isCanonical b = true) (h : b.length < 2 ^ 32)
    (hg : b.length ≤ maxLength → Refuses (g b) c .overflow) :
    Refuses (integer >>= g) (Field.putString b ++ c) .overflow := by
  rcases Nat.lt_or_ge maxLength b.length with hLong | hShort
  · exact (refuses_integer hLong h).bind.append c
  · exact (yields_integer ⟨hCanonical, hShort⟩).refuses (hg hShort)

theorem refuses_throw {e : KeyFault} : Refuses (throw e : KeyReader α) [] e :=
  fun _ _ _ _ _ => rfl

/-- A string that is longer than it may be is refused before it is read. -/
theorem refuses_fieldWithin {b : Bytes} {limit : Nat} (hLong : limit < b.length)
    (h : b.length ≤ maxLength) : Refuses (fieldWithin limit) (Field.putString b) .length := by
  refine (yields_count h).refuses fun i rest _ _ _ => ?_
  refine (StateExcept.bind_of_ok rfl).trans (StateExcept.bind_of_error ?_)
  refine (StateExcept.bind_of_ok rfl).trans ?_
  exact (congrFun (if_pos hLong) _).trans (StateExcept.bind_of_error rfl)

/-- The fault of a name that is given no meaning. -/
def nameFault (s : String) : KeyFault :=
  if maxLength < s.utf8ByteSize then .overflow
  else if maxName < s.utf8ByteSize then .length
  else .label s

/-- A name without a meaning is refused, for its length alone if it is too long for a name. -/
theorem refuses_name {known : String → Option α} {s : String} (hUnknown : known s = none)
    (h : s.utf8ByteSize < 2 ^ 32) : Refuses (name known) (Field.putText s) (nameFault s) := by
  have hLength := Bytes.length_ofString s
  rw [nameFault]
  split
  · next hLong => exact (refuses_nested (by rwa [hLength]) (by rwa [hLength])).bind
  · next hShort =>
    rw [← hLength, not_lt] at hShort
    split
    · next hLong => exact (refuses_fieldWithin (by rwa [hLength]) hShort).bind
    · next hName =>
      rw [← hLength, not_lt] at hName
      rw [← List.append_nil (Field.putText s)]
      refine (yields_fieldWithin hName hShort).refuses ((yields_utf8 s).refuses (d := []) ?_)
      rw [hUnknown]
      exact refuses_throw

end KeyReader

end SshKeys
