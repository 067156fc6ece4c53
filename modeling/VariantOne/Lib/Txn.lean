import Mathlib.Logic.Basic

/-!
# Transaction bodies

A transaction body reads and writes one state and may raise.  What makes it a
*transaction* is the boundary around it: a body that returns is committed, a
body that raises leaves the state as it was.  `Txn σ ε α` is the body,
`Txn.unitOfWork` is the boundary.

The inversion lemmas `run_*_eq_ok` are how proofs take a body apart: a body
that returns has returned at each of its binds, so a hypothesis
`x.run s = .ok (a, s')` is unpacked one bind at a time, and every guard on the
way becomes a fact.
-/

namespace VariantOne

/-- A computation that may raise returns exactly when each of its parts does. -/
theorem except_bind_eq_ok {ε α β : Type} {x : Except ε α} {f : α → Except ε β} {b : β} :
    (x >>= f) = .ok b ↔ ∃ a, x = .ok a ∧ f a = .ok b := by
  cases x with
  | error e =>
      constructor
      · intro h
        exact absurd h (by simp [bind, Except.bind])
      · rintro ⟨a, ha, -⟩
        exact absurd ha (by simp)
  | ok a =>
      constructor
      · intro h
        exact ⟨a, rfl, h⟩
      · rintro ⟨a', ha, h⟩
        rw [← Except.ok.inj ha] at h
        exact h

/-- A computation whose value is known has returned it. -/
theorem except_eq_ok_of_toOption {ε α : Type} {x : Except ε α} {a : α}
    (h : x.toOption = some a) : x = .ok a := by
  cases x with
  | error e => exact absurd h (by simp [Except.toOption])
  | ok b => rw [show b = a by simpa [Except.toOption] using h]

/-- A transaction body over the state `σ`: it may raise `ε`. -/
structure Txn (σ ε α : Type) where
  /-- Run the body from a state. -/
  run : σ → Except ε (α × σ)

namespace Txn

variable {σ ε α β : Type}

instance : Monad (Txn σ ε) where
  pure a := ⟨fun s => .ok (a, s)⟩
  bind x f := ⟨fun s =>
    match x.run s with
    | .error e => .error e
    | .ok (a, s') => (f a).run s'⟩

/-- Leave the body with an error. -/
def raise (e : ε) : Txn σ ε α := ⟨fun _ => .error e⟩

/-- Read the state. -/
def read : Txn σ ε σ := ⟨fun s => .ok (s, s)⟩

/-- Replace the state. -/
def modify (f : σ → σ) : Txn σ ε Unit := ⟨fun s => .ok ((), f s)⟩

/-- Raise unless a condition holds. -/
def ensure (c : Prop) [Decidable c] (e : ε) : Txn σ ε Unit :=
  if c then pure () else raise e

/-- Use a computation that reads no state. -/
def lift (x : Except ε α) : Txn σ ε α := ⟨fun s =>
  match x with
  | .error e => .error e
  | .ok a => .ok (a, s)⟩

@[simp] theorem run_pure (a : α) (s : σ) : (pure a : Txn σ ε α).run s = .ok (a, s) := rfl

@[simp] theorem run_raise (e : ε) (s : σ) : (raise e : Txn σ ε α).run s = .error e := rfl

@[simp] theorem run_read (s : σ) : (read : Txn σ ε σ).run s = .ok (s, s) := rfl

@[simp] theorem run_modify (f : σ → σ) (s : σ) :
    (modify f : Txn σ ε Unit).run s = .ok ((), f s) := rfl

@[simp] theorem run_lift_ok (a : α) (s : σ) :
    (lift (.ok a) : Txn σ ε α).run s = .ok (a, s) := rfl

@[simp] theorem run_lift_error (e : ε) (s : σ) :
    (lift (.error e) : Txn σ ε α).run s = .error e := rfl

theorem run_bind_of_ok {x : Txn σ ε α} {f : α → Txn σ ε β} {s s' : σ} {a : α}
    (h : x.run s = .ok (a, s')) : (x >>= f).run s = (f a).run s' := by
  change (match x.run s with
    | .error e => Except.error e
    | .ok (a, s') => (f a).run s') = (f a).run s'
  rw [h]

theorem run_bind_of_error {x : Txn σ ε α} {f : α → Txn σ ε β} {s : σ} {e : ε}
    (h : x.run s = .error e) : (x >>= f).run s = .error e := by
  change (match x.run s with
    | .error e => Except.error e
    | .ok (a, s') => (f a).run s') = .error e
  rw [h]

/-- **Inversion of a bind.**  A sequence of two bodies returns exactly when the
first returns and the second returns from where the first one left the state. -/
theorem run_bind_eq_ok {x : Txn σ ε α} {f : α → Txn σ ε β} {s s'' : σ} {b : β} :
    (x >>= f).run s = .ok (b, s'') ↔
      ∃ a s', x.run s = .ok (a, s') ∧ (f a).run s' = .ok (b, s'') := by
  constructor
  · intro h
    cases hx : x.run s with
    | error e =>
        rw [run_bind_of_error hx] at h
        exact absurd h (by simp)
    | ok p =>
        obtain ⟨a, s'⟩ := p
        rw [run_bind_of_ok hx] at h
        exact ⟨a, s', rfl, h⟩
  · rintro ⟨a, s', hx, hf⟩
    rw [run_bind_of_ok hx, hf]

theorem run_pure_eq_ok {a b : α} {s s' : σ} :
    (pure a : Txn σ ε α).run s = .ok (b, s') ↔ a = b ∧ s = s' := by
  simp

theorem run_ensure_of_pos {c : Prop} [Decidable c] {e : ε} {s : σ} (h : c) :
    (ensure c e : Txn σ ε Unit).run s = .ok ((), s) := by
  rw [ensure, if_pos h, run_pure]

theorem run_ensure_of_neg {c : Prop} [Decidable c] {e : ε} {s : σ} (h : ¬ c) :
    (ensure c e : Txn σ ε Unit).run s = .error e := by
  rw [ensure, if_neg h, run_raise]

theorem run_ensure_eq_ok {c : Prop} [Decidable c] {e : ε} {s s' : σ} {u : Unit} :
    (ensure c e : Txn σ ε Unit).run s = .ok (u, s') ↔ c ∧ s = s' := by
  by_cases h : c
  · rw [run_ensure_of_pos h]
    simp [h]
  · rw [run_ensure_of_neg h]
    simp [h]

theorem run_lift_eq_ok {x : Except ε α} {a : α} {s s' : σ} :
    (lift x : Txn σ ε α).run s = .ok (a, s') ↔ x = .ok a ∧ s = s' := by
  cases x with
  | error e => simp
  | ok b => simp

/-! ### Taking a body apart

The step lemmas proofs use: what a body that starts with a read, a guard or a
computation needs in order to return. -/

theorem run_read_bind (f : σ → Txn σ ε β) (s : σ) : (read >>= f).run s = (f s).run s := rfl

theorem run_ensure_bind_eq_ok {c : Prop} [Decidable c] {e : ε} {f : Unit → Txn σ ε β} {s s' : σ}
    {b : β} :
    (ensure c e >>= f).run s = .ok (b, s') ↔ c ∧ (f ()).run s = .ok (b, s') := by
  rw [run_bind_eq_ok]
  constructor
  · rintro ⟨u, s'', hens, hf⟩
    obtain ⟨hc, rfl⟩ := run_ensure_eq_ok.mp hens
    exact ⟨hc, hf⟩
  · rintro ⟨hc, hf⟩
    exact ⟨(), s, run_ensure_of_pos hc, hf⟩

theorem run_lift_bind_eq_ok {x : Except ε α} {f : α → Txn σ ε β} {s s' : σ} {b : β} :
    (lift x >>= f).run s = .ok (b, s') ↔ ∃ a, x = .ok a ∧ (f a).run s = .ok (b, s') := by
  rw [run_bind_eq_ok]
  constructor
  · rintro ⟨a, s'', hlift, hf⟩
    obtain ⟨ha, rfl⟩ := run_lift_eq_ok.mp hlift
    exact ⟨a, ha, hf⟩
  · rintro ⟨a, rfl, hf⟩
    exact ⟨a, s, rfl, hf⟩

theorem run_map_eq_ok {x : Txn σ ε α} {f : α → β} {s s' : σ} {b : β} :
    (f <$> x).run s = .ok (b, s') ↔ ∃ a, x.run s = .ok (a, s') ∧ f a = b := by
  change (x >>= fun a => pure (f a)).run s = .ok (b, s') ↔ _
  rw [run_bind_eq_ok]
  constructor
  · rintro ⟨a, s'', hx, hp⟩
    obtain ⟨hb, rfl⟩ := run_pure_eq_ok.mp hp
    exact ⟨a, hx, hb⟩
  · rintro ⟨a, hx, rfl⟩
    exact ⟨a, s', hx, rfl⟩

/-! ### A part of the state -/

/-- Run a body on a part of the state. -/
def zoom {τ : Type} (part : σ → τ) (put : τ → σ → σ) (x : Txn τ ε α) : Txn σ ε α := ⟨fun s =>
  match x.run (part s) with
  | .error e => .error e
  | .ok (a, t) => .ok (a, put t s)⟩

theorem run_zoom_eq_ok {τ : Type} {part : σ → τ} {put : τ → σ → σ} {x : Txn τ ε α} {s s' : σ}
    {a : α} :
    (zoom part put x).run s = .ok (a, s') ↔ ∃ t, x.run (part s) = .ok (a, t) ∧ put t s = s' := by
  unfold zoom
  cases hx : x.run (part s) with
  | error e => simp [hx]
  | ok p =>
      obtain ⟨b, t⟩ := p
      simp only [hx, Except.ok.injEq, Prod.mk.injEq]
      constructor
      · rintro ⟨rfl, rfl⟩
        exact ⟨t, ⟨rfl, rfl⟩, rfl⟩
      · rintro ⟨t', ⟨rfl, rfl⟩, rfl⟩
        exact ⟨rfl, rfl⟩

/-- The boundary: commit what a body returns with, roll back what it raises
from.  `fault` is an error injected between the body and the commit. -/
def unitOfWork (x : Txn σ ε α) (fault : Option ε) (s : σ) : Except ε α × σ :=
  match x.run s, fault with
  | .ok (a, s'), none => (.ok a, s')
  | .ok _, some e => (.error e, s)
  | .error e, _ => (.error e, s)

/-- **Atomicity.**  A unit of work that raises leaves the state unchanged. -/
theorem unitOfWork_error {x : Txn σ ε α} {fault : Option ε} {s s' : σ} {e : ε}
    (h : unitOfWork x fault s = (.error e, s')) : s' = s := by
  unfold unitOfWork at h
  split at h <;> simp_all

/-- A unit of work that returns has committed what its body left. -/
theorem unitOfWork_ok {x : Txn σ ε α} {fault : Option ε} {s s' : σ} {a : α} :
    unitOfWork x fault s = (.ok a, s') ↔ x.run s = .ok (a, s') ∧ fault = none := by
  unfold unitOfWork
  split <;> simp_all

theorem unitOfWork_of_run {x : Txn σ ε α} {s s' : σ} {a : α} (h : x.run s = .ok (a, s')) :
    unitOfWork x none s = (.ok a, s') :=
  unitOfWork_ok.mpr ⟨h, rfl⟩

theorem unitOfWork_of_run_error {x : Txn σ ε α} {fault : Option ε} {s : σ} {e : ε}
    (h : x.run s = .error e) : unitOfWork x fault s = (.error e, s) := by
  unfold unitOfWork
  rw [h]

end Txn
end VariantOne
