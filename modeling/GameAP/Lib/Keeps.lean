import Mathlib.Logic.Basic

/-!
# What a computation keeps

An `EStateM` computation ends in a state whether it returns or throws (`endState`). `Keeps f m`:
`m` leaves the part `f` of the state alone, however it ends; `Preserves P m`: so does what holds
of the state, `P`. The rules follow the way computations are built.
-/

namespace Lib

variable {ε σ α β γ : Type}

/-- The state `m` ends in, by a result or by an exception. -/
def endState (m : EStateM ε σ α) (s : σ) : σ :=
  match m s with
  | .ok _ t => t
  | .error _ t => t

/-- The exception `m` ends with, if any. -/
def thrown (m : EStateM ε σ α) (s : σ) : Option ε :=
  match m s with
  | .ok _ _ => none
  | .error e _ => some e

def Keeps (f : σ → γ) (m : EStateM ε σ α) : Prop := ∀ s, f (endState m s) = f s

/-- A pure computation that may throw. -/
def orThrow (x : Except ε α) : EStateM ε σ α := fun s =>
  match x with
  | .ok a => .ok a s
  | .error e => .error e s

/-- A chain of computations that may throw has a result only if each of them has. -/
theorem ok_of_bind {x : Except ε α} {k : α → Except ε β} {b : β} (h : (x >>= k) = .ok b) :
    ∃ a, x = .ok a ∧ k a = .ok b := by
  cases x with
  | error e => cases h
  | ok a => exact ⟨a, rfl, h⟩

/-- A chain throws if its first part does, or the rest behind what that returns. -/
theorem toBool_bind_eq_false {x : Except ε α} {k : α → Except ε β} :
    (x >>= k).toBool = false ↔ x.toBool = false ∨ ∃ a, x = .ok a ∧ (k a).toBool = false := by
  cases x with
  | error e => exact iff_of_true rfl (.inl rfl)
  | ok a =>
    constructor
    · exact fun h => .inr ⟨a, rfl, h⟩
    · rintro (h | ⟨a', ha, h⟩)
      · cases h
      · cases ha
        exact h

/-- What is thrown satisfies `p`. -/
def ThrowsOnly (p : ε → Prop) (x : Except ε α) : Prop := ∀ e, x = .error e → p e

theorem ThrowsOnly.pure {p : ε → Prop} (a : α) : ThrowsOnly p (pure a : Except ε α) := by
  rintro e ⟨⟩

theorem ThrowsOnly.bind {p : ε → Prop} {x : Except ε α} {k : α → Except ε β} (hx : ThrowsOnly p x)
    (hk : ∀ a, ThrowsOnly p (k a)) : ThrowsOnly p (x >>= k) := by
  intro e h
  cases x with
  | error e' =>
    cases h
    exact hx e rfl
  | ok a => exact hk a e h

/-- The result of a computation that does not throw. -/
def resultD (d : α) (x : Except ε α) : α :=
  match x with
  | .ok a => a
  | .error _ => d

theorem eq_ok_resultD (d : α) {x : Except ε α} (h : x.toBool = true) : x = .ok (resultD d x) := by
  cases x with
  | error e => cases h
  | ok a => rfl

theorem endState_bind (m : EStateM ε σ α) (k : α → EStateM ε σ β) (s : σ) :
    endState (m >>= k) s =
      match m s with
      | .ok a t => endState (k a) t
      | .error _ t => t := by
  simp only [endState, bind, EStateM.bind]
  cases m s <;> rfl

theorem endState_of_ok {m : EStateM ε σ α} {s t : σ} {a : α} (h : m s = .ok a t) :
    endState m s = t := by
  unfold endState
  rw [h]

theorem endState_of_error {m : EStateM ε σ α} {s t : σ} {e : ε} (h : m s = .error e t) :
    endState m s = t := by
  unfold endState
  rw [h]

theorem endState_bind_pure (m : EStateM ε σ α) (b : β) (s : σ) :
    endState (m >>= fun _ => pure b) s = endState m s := by
  rw [endState_bind]
  cases h : m s with
  | ok a t => exact (endState_of_ok h).symm
  | error e t => exact (endState_of_error h).symm

theorem bind_of_ok {m : EStateM ε σ α} {k : α → EStateM ε σ β} {s t : σ} {a : α}
    (h : m s = .ok a t) : (m >>= k) s = k a t := by
  show EStateM.bind m k s = _
  unfold EStateM.bind
  rw [h]

theorem bind_of_error {m : EStateM ε σ α} {k : α → EStateM ε σ β} {s t : σ} {e : ε}
    (h : m s = .error e t) : (m >>= k) s = .error e t := by
  show EStateM.bind m k s = _
  unfold EStateM.bind
  rw [h]

/-- A computation has a result only if its first part has one. -/
theorem of_bind_eq_ok {m : EStateM ε σ α} {k : α → EStateM ε σ β} {s t : σ} {b : β}
    (h : (m >>= k) s = .ok b t) : ∃ a s', m s = .ok a s' ∧ k a s' = .ok b t := by
  cases hm : m s with
  | ok a s' =>
    rw [bind_of_ok hm] at h
    exact ⟨a, s', rfl, h⟩
  | error e s' =>
    rw [bind_of_error hm] at h
    cases h

theorem of_orThrow_bind_eq_ok {x : Except ε α} {k : α → EStateM ε σ β} {s t : σ} {b : β}
    (h : (orThrow x >>= k) s = .ok b t) : ∃ a, x = .ok a ∧ k a s = .ok b t := by
  obtain ⟨a, s', hx, hk⟩ := of_bind_eq_ok h
  cases x with
  | error e => cases hx
  | ok a' =>
    cases hx
    exact ⟨a, rfl, hk⟩

theorem get_bind_apply (k : σ → EStateM ε σ β) (s : σ) : (get >>= k) s = k s s := rfl

theorem modify_bind_apply (g : σ → σ) (k : PUnit → EStateM ε σ β) (s : σ) :
    (modify g >>= k) s = k ⟨⟩ (g s) := rfl

theorem endState_orThrow (x : Except ε α) (s : σ) : endState (orThrow x) s = s := by
  unfold endState orThrow
  cases x <;> rfl

theorem endState_orThrow_bind (x : Except ε α) (k : α → EStateM ε σ β) (s : σ) :
    endState (orThrow x >>= k) s =
      match x with
      | .ok a => endState (k a) s
      | .error _ => s := by
  rw [endState_bind]
  cases x <;> rfl

theorem orThrow_ok_bind {x : Except ε α} {k : α → EStateM ε σ β} {a : α} (h : x = .ok a) :
    (orThrow x >>= k) = k a := by
  rw [h]
  rfl

theorem endState_modify_bind (g : σ → σ) (k : PUnit → EStateM ε σ β) (s : σ) :
    endState (modify g >>= k) s = endState (k ⟨⟩) (g s) := rfl

theorem endState_get_bind (k : σ → EStateM ε σ β) (s : σ) :
    endState (get >>= k) s = endState (k s) s := rfl

theorem thrown_get_bind (k : σ → EStateM ε σ β) (s : σ) :
    thrown (get >>= k) s = thrown (k s) s := rfl

theorem thrown_orThrow_bind (x : Except ε α) (k : α → EStateM ε σ β) (s : σ) :
    thrown (orThrow x >>= k) s =
      match x with
      | .ok a => thrown (k a) s
      | .error e => some e := by
  cases x <;> rfl

variable {f : σ → γ}

theorem Keeps.pure (a : α) : Keeps f (pure a : EStateM ε σ α) := fun _ => rfl

theorem Keeps.orThrow (x : Except ε α) : Keeps f (orThrow x : EStateM ε σ α) := fun s => by
  rw [endState_orThrow]

theorem Keeps.get : Keeps f (get : EStateM ε σ σ) := fun _ => rfl

theorem Keeps.modify {g : σ → σ} (h : ∀ s, f (g s) = f s) :
    Keeps f (modify g : EStateM ε σ PUnit) := fun s => h s

theorem Keeps.bind {m : EStateM ε σ α} {k : α → EStateM ε σ β} (h1 : Keeps f m)
    (h2 : ∀ a, Keeps f (k a)) : Keeps f (m >>= k) := by
  intro s
  rw [endState_bind]
  have h := h1 s
  cases hm : m s with
  | ok a t =>
    rw [endState_of_ok hm] at h
    exact (h2 a t).trans h
  | error e t =>
    rw [endState_of_error hm] at h
    exact h

theorem Keeps.eq_of_ok {m : EStateM ε σ α} {s t : σ} {a : α} (h : Keeps f m)
    (hm : m s = .ok a t) : f t = f s := by
  rw [← h s, endState_of_ok hm]

theorem Keeps.comp {δ : Type} {m : EStateM ε σ α} (h : Keeps f m) (g : γ → δ) :
    Keeps (fun s => g (f s)) m := fun s => congrArg g (h s)

theorem Keeps.ite {c : Prop} [Decidable c] {m n : EStateM ε σ α} (h1 : Keeps f m)
    (h2 : Keeps f n) : Keeps f (if c then m else n) := by
  split
  · exact h1
  · exact h2

/-- However it starts, the computation returns. -/
def NoThrow (m : EStateM ε σ α) : Prop := ∀ s, ∃ a t, m s = .ok a t

section NoThrow

theorem NoThrow.pure (a : α) : NoThrow (pure a : EStateM ε σ α) := fun s => ⟨a, s, rfl⟩

theorem NoThrow.get : NoThrow (get : EStateM ε σ σ) := fun s => ⟨s, s, rfl⟩

theorem NoThrow.modify (g : σ → σ) : NoThrow (modify g : EStateM ε σ PUnit) :=
  fun s => ⟨⟨⟩, g s, rfl⟩

theorem NoThrow.orThrow {x : Except ε α} (h : x.toBool = true) :
    NoThrow (orThrow x : EStateM ε σ α) := fun s => by
  cases x with
  | ok a => exact ⟨a, s, rfl⟩
  | error e => cases h

theorem NoThrow.bind {m : EStateM ε σ α} {k : α → EStateM ε σ β} (h1 : NoThrow m)
    (h2 : ∀ a, NoThrow (k a)) : NoThrow (m >>= k) := by
  intro s
  obtain ⟨a, t, hm⟩ := h1 s
  rw [bind_of_ok hm]
  exact h2 a t

theorem NoThrow.ite {c : Prop} [Decidable c] {m n : EStateM ε σ α} (h1 : NoThrow m)
    (h2 : NoThrow n) : NoThrow (if c then m else n) := by
  split
  · exact h1
  · exact h2

end NoThrow

/-- However it starts, the computation throws. -/
def Throws (m : EStateM ε σ α) : Prop := ∀ s a t, m s ≠ .ok a t

section Throws

theorem Throws.throw (e : ε) : Throws (throw e : EStateM ε σ α) := by
  rintro s a t ⟨⟩

theorem Throws.bind {m : EStateM ε σ α} {k : α → EStateM ε σ β} (h : ∀ a, Throws (k a)) :
    Throws (m >>= k) := by
  intro s b t hok
  obtain ⟨a, s', -, hk⟩ := of_bind_eq_ok hok
  exact h a s' b t hk

end Throws

def Preserves (P : σ → Prop) (m : EStateM ε σ α) : Prop := ∀ s, P s → P (endState m s)

section Preserves

variable {P : σ → Prop}

theorem Preserves.pure (a : α) : Preserves P (pure a : EStateM ε σ α) := fun _ hs => hs

theorem Preserves.orThrow (x : Except ε α) : Preserves P (orThrow x : EStateM ε σ α) :=
  fun s hs => by rwa [endState_orThrow]

theorem Preserves.get : Preserves P (get : EStateM ε σ σ) := fun _ hs => hs

theorem Preserves.modify {g : σ → σ} (h : ∀ s, P s → P (g s)) :
    Preserves P (modify g : EStateM ε σ PUnit) := fun s hs => h s hs

theorem Preserves.bind {m : EStateM ε σ α} {k : α → EStateM ε σ β} (h1 : Preserves P m)
    (h2 : ∀ a, Preserves P (k a)) : Preserves P (m >>= k) := by
  intro s hs
  rw [endState_bind]
  have h := h1 s hs
  unfold endState at h
  cases hm : m s with
  | ok a t =>
    rw [hm] at h
    exact h2 a t h
  | error e t =>
    rw [hm] at h
    exact h

theorem Preserves.ite {c : Prop} [Decidable c] {m n : EStateM ε σ α} (h1 : Preserves P m)
    (h2 : Preserves P n) : Preserves P (if c then m else n) := by
  split
  · exact h1
  · exact h2

/-- A value that was not thrown over may be used in what follows. -/
theorem Preserves.orThrow_bind {x : Except ε α} {k : α → EStateM ε σ β}
    (h : ∀ a, x = .ok a → Preserves P (k a)) : Preserves P (Lib.orThrow x >>= k) := by
  intro s hs
  rw [endState_orThrow_bind]
  cases x with
  | ok a => exact h a rfl s hs
  | error e => exact hs

/-- What is read of the state may be used in what follows. -/
theorem Preserves.get_bind {k : σ → EStateM ε σ α} (h : ∀ s, P s → P (endState (k s) s)) :
    Preserves P ((MonadState.get : EStateM ε σ σ) >>= k) := fun s hs => h s hs

end Preserves

end Lib
