import VariantOne.Lib.Txn

/-!
# What a body can raise

`x.Raises P`: whatever a body raises satisfies `P`.  A sequence raises what its parts raise, so what a long
body can raise is read off its statements, one lemma for each of them.  `ExceptRaises` is the same for a
computation that reads no state.

The rules follow the constructors of a body: `pure`, `raise`, `read`, `modify`, `ensure`, `lift` and `bind`.
What a guard raises is what it is given, and a body without a guard raises nothing.
-/

namespace VariantOne

variable {σ ε α β : Type}

/-- What a computation raises satisfies `P`. -/
def ExceptRaises (x : Except ε α) (P : ε → Prop) : Prop := ∀ e, x = .error e → P e

namespace ExceptRaises

variable {P : ε → Prop}

theorem ok (a : α) : ExceptRaises (.ok a : Except ε α) P := by
  intro e h
  exact absurd h (by simp)

theorem error {e : ε} (he : P e) : ExceptRaises (.error e : Except ε α) P := by
  intro e' h
  rwa [← Except.error.inj h]

theorem bind {x : Except ε α} {f : α → Except ε β} (hx : ExceptRaises x P)
    (hf : ∀ a, ExceptRaises (f a) P) : ExceptRaises (x >>= f) P := by
  cases x with
  | error e => exact error (hx e rfl)
  | ok a => exact hf a

theorem map {x : Except ε α} {f : α → β} (hx : ExceptRaises x P) : ExceptRaises (x.map f) P := by
  cases x with
  | error e => exact error (hx e rfl)
  | ok a => exact ok _

end ExceptRaises

namespace Txn

/-- What a body raises satisfies `P`. -/
def Raises (x : Txn σ ε α) (P : ε → Prop) : Prop := ∀ s e, x.run s = .error e → P e

namespace Raises

variable {P : ε → Prop}

theorem pure (a : α) : Raises (Pure.pure a : Txn σ ε α) P := by
  intro s e h
  exact absurd h (by simp)

theorem raise {e : ε} (he : P e) : Raises (Txn.raise e : Txn σ ε α) P := by
  intro s e' h
  rwa [← Except.error.inj h]

theorem read : Raises (Txn.read : Txn σ ε σ) P := by
  intro s e h
  exact absurd h (by simp)

theorem modify (f : σ → σ) : Raises (Txn.modify f : Txn σ ε Unit) P := by
  intro s e h
  exact absurd h (by simp)

theorem ensure {c : Prop} [Decidable c] {e : ε} (he : P e) :
    Raises (Txn.ensure c e : Txn σ ε Unit) P := by
  unfold Txn.ensure
  split
  · exact pure ()
  · exact raise he

theorem lift {x : Except ε α} (hx : ExceptRaises x P) : Raises (Txn.lift x : Txn σ ε α) P := by
  intro s e h
  cases x with
  | error e' => exact hx e (congrArg Except.error (Except.error.inj h))
  | ok a => exact absurd h (by simp)

theorem bind {x : Txn σ ε α} {f : α → Txn σ ε β} (hx : Raises x P) (hf : ∀ a, Raises (f a) P) :
    Raises (x >>= f) P := by
  intro s e h
  cases hrun : x.run s with
  | error e' =>
      rw [run_bind_of_error hrun] at h
      exact Except.error.inj h ▸ hx s e' hrun
  | ok p =>
      obtain ⟨a, s'⟩ := p
      rw [run_bind_of_ok hrun] at h
      exact hf a s' e h

end Raises
end Txn
end VariantOne
