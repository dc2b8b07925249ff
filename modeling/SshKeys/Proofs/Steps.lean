import Mathlib.Control.Basic

/-!
# Sequences of steps

The programs of this library are sequences of steps that may fail, with or
without a state.  In each of the monads in use, `bind_eq_ok_iff` takes a
successful sequence apart into its steps, `refuse_eq_ok_iff` passes a step that
may only refuse, and `lift_eq_ok_iff` a step that does not touch the state.

`ExceptState` keeps the state also when a step fails, `StateExcept` does not, and
`Result` has none.  `StateOption` only runs a sequence forwards.
-/

namespace SshKeys

variable {ε σ α β : Type}

namespace ExceptState

variable {x : ExceptT ε (StateM σ) α} {f : α → ExceptT ε (StateM σ) β} {s t : σ}

theorem bind_of_ok {a : α} (h : x s = (.ok a, t)) : (x >>= f) s = f a t := by
  simp only [bind, ExceptT.bind, ExceptT.mk, StateT.bind, h, ExceptT.bindCont]

theorem bind_of_error {e : ε} (h : x s = (.error e, t)) : (x >>= f) s = (.error e, t) := by
  simp only [bind, ExceptT.bind, ExceptT.mk, StateT.bind, h, ExceptT.bindCont]
  rfl

/-- A sequence sees no more of its first step than what comes of it. -/
theorem bind_congr {y : ExceptT ε (StateM σ) α} (h : x s = y s) : (x >>= f) s = (y >>= f) s := by
  simp only [bind, ExceptT.bind, ExceptT.mk, StateT.bind, h]

/-- **A sequence succeeds exactly when its two steps do**, the second on what the first left. -/
theorem bind_eq_ok_iff {b : β} {u : σ} :
    (x >>= f) s = (.ok b, u) ↔ ∃ a t, x s = (.ok a, t) ∧ f a t = (.ok b, u) := by
  constructor
  · intro h
    match hx : x s with
    | (.ok a, t) => exact ⟨a, t, rfl, by rwa [bind_of_ok hx] at h⟩
    | (.error e, t) =>
      rw [bind_of_error hx] at h
      cases h
  · rintro ⟨a, t, hx, hf⟩
    rw [bind_of_ok hx, hf]

/-- A sequence fails where its first step does, or where the second does on what the first left. -/
theorem bind_eq_error_iff {e : ε} {u : σ} :
    (x >>= f) s = (.error e, u) ↔
      x s = (.error e, u) ∨ ∃ a t, x s = (.ok a, t) ∧ f a t = (.error e, u) := by
  match hx : x s with
  | (.ok a, t) =>
    rw [bind_of_ok hx]
    constructor
    · intro h
      exact .inr ⟨a, t, rfl, h⟩
    · rintro (h | ⟨a', t', h, hf⟩)
      · cases h
      · cases h
        exact hf
  | (.error e', t) =>
    rw [bind_of_error hx]
    constructor
    · intro h
      cases h
      exact .inl rfl
    · rintro (h | ⟨a, t', h, -⟩)
      · cases h
        rfl
      · cases h

theorem refuse_of {c : Prop} [Decidable c] {e : ε} {k : Unit → ExceptT ε (StateM σ) β}
    (h : c) : (if c then throw e >>= k else k ()) s = (.error e, s) := by
  rw [if_pos h]
  exact bind_of_error rfl

theorem refuse_of_not {c : Prop} [Decidable c] {e : ε} {k : Unit → ExceptT ε (StateM σ) β}
    (h : ¬c) : (if c then throw e >>= k else k ()) s = k () s := by
  rw [if_neg h]

theorem refuse_eq_ok_iff {c : Prop} [Decidable c] {e : ε} {k : Unit → ExceptT ε (StateM σ) β}
    {b : β} :
    (if c then throw e >>= k else k ()) s = (.ok b, t) ↔ ¬c ∧ k () s = (.ok b, t) := by
  by_cases hc : c
  · rw [if_pos hc]
    constructor
    · intro h
      cases h
    · rintro ⟨h, -⟩
      exact absurd hc h
  · rw [if_neg hc]
    simp only [hc, not_false_eq_true, true_and]

theorem refuse_eq_error_iff {c : Prop} [Decidable c] {e e' : ε}
    {k : Unit → ExceptT ε (StateM σ) β} :
    (if c then throw e >>= k else k ()) s = (.error e', t) ↔
      c ∧ e' = e ∧ t = s ∨ ¬c ∧ k () s = (.error e', t) := by
  by_cases hc : c
  · rw [refuse_of hc]
    constructor
    · intro h
      cases h
      exact .inl ⟨hc, rfl, rfl⟩
    · rintro (⟨-, rfl, rfl⟩ | ⟨h, -⟩)
      · rfl
      · exact absurd hc h
  · rw [refuse_of_not hc]
    simp only [hc, false_and, not_false_eq_true, true_and, false_or]

theorem tryCatch_of_ok {handle : ε → ExceptT ε (StateM σ) α} {a : α} (h : x s = (.ok a, t)) :
    tryCatch x handle s = (.ok a, t) := by
  simp only [tryCatch, tryCatchThe, MonadExceptOf.tryCatch, ExceptT.tryCatch, ExceptT.mk, bind,
    StateT.bind, h]
  rfl

/-- A failure that is caught leaves the state as it was when it came. -/
theorem tryCatch_of_error {handle : ε → ExceptT ε (StateM σ) α} {e : ε}
    (h : x s = (.error e, t)) : tryCatch x handle s = handle e t := by
  simp only [tryCatch, tryCatchThe, MonadExceptOf.tryCatch, ExceptT.tryCatch, ExceptT.mk, bind,
    StateT.bind, h]

theorem lift_eq_ok_iff {x : Except ε α} {a : α} :
    (liftM x : ExceptT ε (StateM σ) α) s = (.ok a, t) ↔ x = .ok a ∧ t = s := by
  cases x with
  | error e =>
    constructor
    · intro h
      cases h
    · rintro ⟨h, -⟩
      cases h
  | ok b =>
    constructor
    · intro h
      cases h
      exact ⟨rfl, rfl⟩
    · rintro ⟨h, rfl⟩
      cases h
      rfl

end ExceptState

namespace StateExcept

variable {x : StateT σ (Except ε) α} {f : α → StateT σ (Except ε) β} {s t : σ} {a : α} {b : β}

theorem bind_of_ok (h : x s = .ok (a, t)) : (x >>= f) s = f a t := by
  simp only [bind, StateT.bind, h, Except.bind]

theorem bind_of_error {e : ε} (h : x s = .error e) : (x >>= f) s = .error e := by
  simp only [bind, StateT.bind, h, Except.bind]

theorem bind_eq_ok_iff {u : σ} :
    (x >>= f) s = .ok (b, u) ↔ ∃ a t, x s = .ok (a, t) ∧ f a t = .ok (b, u) := by
  cases hx : x s with
  | error e =>
    simp only [bind, StateT.bind, hx, Except.bind]
    constructor
    · rintro ⟨⟩
    · rintro ⟨_, _, ⟨⟩, _⟩
  | ok p =>
    obtain ⟨a, t⟩ := p
    rw [bind_of_ok hx]
    constructor
    · exact fun h => ⟨a, t, rfl, h⟩
    · rintro ⟨a', t', h, hf⟩
      cases h
      exact hf

theorem refuse_eq_ok_iff {c : Prop} [Decidable c] {e : ε} {k : Unit → StateT σ (Except ε) α} :
    (if c then throw e >>= k else k ()) s = .ok (a, t) ↔ ¬c ∧ k () s = .ok (a, t) := by
  by_cases hc : c
  · rw [if_pos hc]
    constructor
    · rintro ⟨⟩
    · exact fun h => absurd hc h.1
  · rw [if_neg hc]
    simp only [hc, not_false_eq_true, true_and]

theorem accept_eq_ok_iff {c : Prop} [Decidable c] {e : ε} {k : StateT σ (Except ε) α} :
    (if c then k else throw e) s = .ok (a, t) ↔ c ∧ k s = .ok (a, t) := by
  by_cases hc : c
  · rw [if_pos hc]
    simp only [hc, true_and]
  · rw [if_neg hc]
    constructor
    · rintro ⟨⟩
    · exact fun h => absurd h.1 hc

/-- A step that does not touch the state hands it on. -/
theorem lift_eq {x : Except ε α} :
    (liftM x : StateT σ (Except ε) α) s = x >>= fun a => .ok (a, s) := by
  cases x <;> rfl

theorem lift_bind {x : Except ε α} :
    ((liftM x : StateT σ (Except ε) α) >>= f) s = x >>= fun a => f a s := by
  cases x <;> rfl

theorem lift_eq_ok_iff {x : Except ε α} :
    (liftM x : StateT σ (Except ε) α) s = .ok (a, t) ↔ x = .ok a ∧ t = s := by
  cases x with
  | error e =>
    constructor
    · rintro ⟨⟩
    · rintro ⟨⟨⟩, -⟩
  | ok a' =>
    constructor
    · rintro ⟨⟩
      exact ⟨rfl, rfl⟩
    · rintro ⟨⟨⟩, rfl⟩
      rfl

end StateExcept

namespace StateOption

variable {x : StateT σ Option α} {f : α → StateT σ Option β} {s t : σ} {a : α}

theorem bind_of_some (h : x s = some (a, t)) : (x >>= f) s = f a t := by
  simp only [bind, StateT.bind, h, Option.bind]

/-- A sequence sees no more of the state than its first step does. -/
theorem bind_congr (h : x s = x t) : (x >>= f) s = (x >>= f) t := by
  simp only [bind, StateT.bind, h]

theorem guard_of {c : Prop} [Decidable c] (h : c) :
    (guard c : StateT σ Option Unit) s = some ((), s) := by
  rw [guard, if_pos h]
  rfl

theorem lift_of_some {y : Option α} (h : y = some a) :
    (liftM y : StateT σ Option α) s = some (a, s) := by
  rw [h]
  rfl

end StateOption

namespace Result

theorem ok_bind (a : α) (f : α → Except ε β) : (Except.ok a >>= f) = f a := rfl

theorem error_bind (e : ε) (f : α → Except ε β) : (Except.error e >>= f) = .error e := rfl

theorem bind_eq_ok_iff {x : Except ε α} {f : α → Except ε β} {b : β} :
    (x >>= f) = .ok b ↔ ∃ a, x = .ok a ∧ f a = .ok b := by
  cases x with
  | error e =>
    constructor
    · rintro ⟨⟩
    · rintro ⟨_, ⟨⟩, _⟩
  | ok a =>
    constructor
    · exact fun h => ⟨a, rfl, h⟩
    · rintro ⟨a', h, hf⟩
      cases h
      exact hf

/-- A sequence fails where its first step does, or where the second does after it. -/
theorem bind_eq_error_iff {x : Except ε α} {f : α → Except ε β} {e : ε} :
    (x >>= f) = .error e ↔ x = .error e ∨ ∃ a, x = .ok a ∧ f a = .error e := by
  cases x with
  | error e' =>
    rw [error_bind]
    constructor
    · rintro ⟨⟩
      exact .inl rfl
    · rintro (⟨⟨⟩⟩ | ⟨_, ⟨⟩, _⟩)
      rfl
  | ok a =>
    rw [ok_bind]
    constructor
    · exact fun h => .inr ⟨a, rfl, h⟩
    · rintro (⟨⟨⟩⟩ | ⟨_, ⟨⟩, hf⟩)
      exact hf

theorem map_eq_ok_iff {x : Except ε α} {g : α → β} {b : β} :
    x.map g = .ok b ↔ ∃ a, x = .ok a ∧ g a = b := by
  cases x with
  | error e =>
    constructor
    · rintro ⟨⟩
    · rintro ⟨_, ⟨⟩, _⟩
  | ok a =>
    constructor
    · rintro ⟨⟩
      exact ⟨a, rfl, rfl⟩
    · rintro ⟨_, ⟨⟩, rfl⟩
      rfl

theorem refuse_eq_ok_iff {c : Prop} [Decidable c] {e : ε} {k : Unit → Except ε α} {a : α} :
    (if c then throw e >>= k else k ()) = .ok a ↔ ¬c ∧ k () = .ok a := by
  by_cases hc : c
  · rw [if_pos hc]
    constructor
    · rintro ⟨⟩
    · exact fun h => absurd hc h.1
  · rw [if_neg hc]
    simp only [hc, not_false_eq_true, true_and]

end Result

end SshKeys
