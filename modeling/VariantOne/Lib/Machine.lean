import Mathlib.Logic.Basic

/-!
# Deterministic machines and their histories

A machine takes a label in a state to an outcome and a next state.  A run is
recorded with its *history*: the labels taken and the outcomes they gave,
newest first.  Everything an outside party can have observed is a function of
the history, so a statement about who was last granted what, or about how often
something was done, is a recursion over it.

`Run.invariant` is the one induction over runs: a relation between history and
state that holds at the start and that every step preserves holds of every run.
-/

namespace VariantOne

/-- A deterministic machine: states `σ`, labels `ℓ`, outcomes `ρ`. -/
structure Machine (σ ℓ ρ : Type*) where
  /-- The state every run starts from. -/
  start : σ
  /-- One step. -/
  step : ℓ → σ → ρ × σ

namespace Machine

variable {σ ℓ ρ : Type*} (M : Machine σ ℓ ρ)

/-- `M.Run h s`: some run with history `h`, newest first, ends in `s`. -/
inductive Run : List (ℓ × ρ) → σ → Prop
  | start : Run [] M.start
  | step {h : List (ℓ × ρ)} {s s' : σ} {l : ℓ} {r : ρ} :
      Run h s → M.step l s = (r, s') → Run ((l, r) :: h) s'

/-- The history and the state after taking a list of labels in order. -/
def exec (p : List (ℓ × ρ) × σ) : List ℓ → List (ℓ × ρ) × σ
  | [] => p
  | l :: ls => exec ((l, (M.step l p.2).1) :: p.1, (M.step l p.2).2) ls

/-- A run all of whose steps meet a condition on the state before the step. -/
inductive RunWhere (C : List (ℓ × ρ) → σ → ℓ → Prop) : List (ℓ × ρ) → σ → Prop
  | start : RunWhere C [] M.start
  | step {h : List (ℓ × ρ)} {s s' : σ} {l : ℓ} {r : ρ} :
      RunWhere C h s → C h s l → M.step l s = (r, s') → RunWhere C ((l, r) :: h) s'

variable {M}

/-- **The run rule.**  What holds at the start and is preserved by every step
holds at the end of every run. -/
theorem Run.invariant {I : List (ℓ × ρ) → σ → Prop} (hstart : I [] M.start)
    (hstep : ∀ h s l r s', M.Run h s → I h s → M.step l s = (r, s') → I ((l, r) :: h) s')
    {h : List (ℓ × ρ)} {s : σ} (hrun : M.Run h s) : I h s := by
  induction hrun with
  | start => exact hstart
  | step hrun hs ih => exact hstep _ _ _ _ _ hrun ih hs

/-- A run that goes on is a run up to there. -/
theorem Run.of_append {later early : List (ℓ × ρ)} {s : σ} (hrun : M.Run (later ++ early) s) :
    ∃ s', M.Run early s' := by
  induction later generalizing s with
  | nil => exact ⟨s, hrun⟩
  | cons e later ih =>
      cases hrun with
      | step hrun _ => exact ih hrun

/-- The run rule for runs whose steps meet a condition. -/
theorem RunWhere.invariant {C : List (ℓ × ρ) → σ → ℓ → Prop}
    {I : List (ℓ × ρ) → σ → Prop} (hstart : I [] M.start)
    (hstep : ∀ h s l r s', M.RunWhere C h s → I h s → C h s l → M.step l s = (r, s') →
      I ((l, r) :: h) s')
    {h : List (ℓ × ρ)} {s : σ} (hrun : M.RunWhere C h s) : I h s := by
  induction hrun with
  | start => exact hstart
  | step hrun hc hs ih => exact hstep _ _ _ _ _ hrun ih hc hs

/-- Forgetting the condition leaves a run. -/
theorem RunWhere.run {C : List (ℓ × ρ) → σ → ℓ → Prop} {h : List (ℓ × ρ)} {s : σ}
    (hrun : M.RunWhere C h s) : M.Run h s := by
  induction hrun with
  | start => exact .start
  | step _ _ hs ih => exact .step ih hs

/-- A run is a run that meets no condition. -/
theorem Run.runWhere {h : List (ℓ × ρ)} {s : σ} (hrun : M.Run h s) :
    M.RunWhere (fun _ _ _ => True) h s := by
  induction hrun with
  | start => exact .start
  | step _ hs ih => exact .step ih trivial hs

/-- The steps a run takes after it has reached `s` with history `h`: their
entries, newest first, and the state they end in. -/
inductive Extends (M : Machine σ ℓ ρ) (C : List (ℓ × ρ) → σ → ℓ → Prop) (h : List (ℓ × ρ))
    (s : σ) : List (ℓ × ρ) → σ → Prop
  | refl : Extends M C h s [] s
  | step {later : List (ℓ × ρ)} {s₁ s₂ : σ} {l : ℓ} {r : ρ} :
      Extends M C h s later s₁ → C (later ++ h) s₁ l → M.step l s₁ = (r, s₂) →
        Extends M C h s ((l, r) :: later) s₂

/-- A run followed by its extension is a run. -/
theorem RunWhere.extend {C : List (ℓ × ρ) → σ → ℓ → Prop} {h later : List (ℓ × ρ)} {s s' : σ}
    (hrun : M.RunWhere C h s) (hext : M.Extends C h s later s') :
    M.RunWhere C (later ++ h) s' := by
  induction hext with
  | refl => exact hrun
  | step _ hc hs ih => exact .step ih hc hs

/-- What holds when an extension starts and is preserved by its steps holds at
its end. -/
theorem Extends.invariant {C : List (ℓ × ρ) → σ → ℓ → Prop} {h : List (ℓ × ρ)} {s : σ}
    {I : List (ℓ × ρ) → σ → Prop} (hstart : I [] s)
    (hstep : ∀ later s₁ l r s₂, M.Extends C h s later s₁ → I later s₁ → C (later ++ h) s₁ l →
      M.step l s₁ = (r, s₂) → I ((l, r) :: later) s₂)
    {later : List (ℓ × ρ)} {s' : σ} (hext : M.Extends C h s later s') : I later s' := by
  induction hext with
  | refl => exact hstart
  | step hext hc hs ih => exact hstep _ _ _ _ _ hext ih hc hs

/-- Taking labels one after the other extends a run. -/
theorem Run.exec {h : List (ℓ × ρ)} {s : σ} (hrun : M.Run h s) (ls : List ℓ) :
    M.Run (M.exec (h, s) ls).1 (M.exec (h, s) ls).2 := by
  induction ls generalizing h s with
  | nil => exact hrun
  | cons l ls ih => exact ih (.step hrun rfl)

/-- Taking labels that meet a condition wherever they are taken. -/
theorem RunWhere.exec {C : List (ℓ × ρ) → σ → ℓ → Prop} {h : List (ℓ × ρ)} {s : σ}
    (hrun : M.RunWhere C h s) (ls : List ℓ) (hls : ∀ l ∈ ls, ∀ h s, C h s l) :
    M.RunWhere C (M.exec (h, s) ls).1 (M.exec (h, s) ls).2 := by
  induction ls generalizing h s with
  | nil => exact hrun
  | cons l ls ih =>
      exact ih (.step hrun (hls l (by simp) h s) rfl) fun l' hl' => hls l' (by simp [hl'])

/-- Whether each of a list of labels passes a check on the state it is taken in. -/
def passes (M : Machine σ ℓ ρ) (check : σ → ℓ → Bool) : σ → List ℓ → Bool
  | _, [] => true
  | s, l :: ls => check s l && passes M check (M.step l s).2 ls

/-- Taking labels that pass a check of the condition. -/
theorem RunWhere.exec_of_passes {C : List (ℓ × ρ) → σ → ℓ → Prop} {check : σ → ℓ → Bool}
    (hcheck : ∀ h s l, check s l = true → C h s l) {h : List (ℓ × ρ)} {s : σ}
    (hrun : M.RunWhere C h s) {ls : List ℓ} (hls : M.passes check s ls = true) :
    M.RunWhere C (M.exec (h, s) ls).1 (M.exec (h, s) ls).2 := by
  induction ls generalizing h s with
  | nil => exact hrun
  | cons l ls ih =>
      rw [passes, Bool.and_eq_true] at hls
      exact ih (.step hrun (hcheck h s l hls.1) rfl) hls.2

/-- Taking labels that meet a condition wherever they are taken extends an
extension. -/
theorem Extends.exec {C : List (ℓ × ρ) → σ → ℓ → Prop} {h later : List (ℓ × ρ)} {s s' : σ}
    (hext : M.Extends C h s later s') (ls : List ℓ) (hls : ∀ l ∈ ls, ∀ h s, C h s l) :
    M.Extends C h s (M.exec (later, s') ls).1 (M.exec (later, s') ls).2 := by
  induction ls generalizing later s' with
  | nil => exact hext
  | cons l ls ih =>
      exact ih (.step hext (hls l (by simp) _ s') rfl) fun l' hl' => hls l' (by simp [hl'])

end Machine
end VariantOne
