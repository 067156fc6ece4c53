import Mathlib.Data.List.Basic

/-!
# A slot whose work begins once while its outcome is remembered

The slot of an identity is free, has work that was begun, or is settled.  Work begins in a free
slot, and in a settled one only after its outcome was forgotten, which takes as many settlements
of other slots as the capacity.  A history is kept newest first.

`Trace.begun_apart` is what this comes to: between two beginnings in one slot the first one is
settled, and after that at least as many other slots as the capacity are.  `Trace.remembered` is
the other side: until then the slot remembers the outcome.
-/

namespace VariantOne
namespace OnceSlot

variable {ω ρ : Type*}

/-- What happens to a slot, or to another one. -/
inductive Event (ω ρ : Type*) where
  | begun (i : ω)
  | settled (i : ω) (r : ρ)
  | elsewhere

/-- Another slot was settled. -/
def Event.isElsewhere : Event ω ρ → Bool
  | .elsewhere => true
  | .begun _ | .settled .. => false

/-- A slot.  The age of an outcome counts the settlements of other slots after it. -/
inductive Slot (ω ρ : Type*) where
  | free
  | taken (i : ω)
  | settled (i : ω) (r : ρ) (age : Nat)

/-- The steps of a slot.  Work that is settled without having begun needs a slot it could begin
in. -/
inductive Next (capacity : Nat) : Slot ω ρ → Event ω ρ → Slot ω ρ → Prop
  | begin_free (i : ω) : Next capacity .free (.begun i) (.taken i)
  | begin_forgotten {j : ω} {r : ρ} {age : Nat} (i : ω) (h : capacity ≤ age) :
      Next capacity (.settled j r age) (.begun i) (.taken i)
  | settle (i : ω) (r : ρ) : Next capacity (.taken i) (.settled i r) (.settled i r 0)
  | settle_free (i : ω) (r : ρ) : Next capacity .free (.settled i r) (.settled i r 0)
  | settle_forgotten {j : ω} {r' : ρ} {age : Nat} (i : ω) (r : ρ) (h : capacity ≤ age) :
      Next capacity (.settled j r' age) (.settled i r) (.settled i r 0)
  | elsewhere_free : Next capacity .free .elsewhere .free
  | elsewhere_taken (i : ω) : Next capacity (.taken i) .elsewhere (.taken i)
  | elsewhere_settled (i : ω) (r : ρ) (age : Nat) :
      Next capacity (.settled i r age) .elsewhere (.settled i r (age + 1))

/-- A history leads a slot from the free state to a state. -/
inductive Trace (capacity : Nat) : List (Event ω ρ) → Slot ω ρ → Prop
  | nil : Trace capacity [] .free
  | cons {h : List (Event ω ρ)} {c c' : Slot ω ρ} {e : Event ω ρ} :
      Trace capacity h c → Next capacity c e c' → Trace capacity (e :: h) c'

variable {capacity : Nat}

/-- A history that goes on is a history up to there. -/
theorem Trace.of_append {later early : List (Event ω ρ)} {c : Slot ω ρ}
    (h : Trace capacity (later ++ early) c) : ∃ c', Trace capacity early c' := by
  induction later generalizing c with
  | nil => exact ⟨c, h⟩
  | cons e later ih =>
      cases h with
      | cons h _ => exact ih h

/-- The outcome of the first work is settled, and enough others since. -/
def Answered (capacity : Nat) (i : ω) (mid : List (Event ω ρ)) : Prop :=
  ∃ newer r older, mid = newer ++ Event.settled i r :: older ∧
    capacity ≤ newer.countP Event.isElsewhere

/-- What a slot is after work was begun in it: still taken, or answered and taken again, or settled
with an age that was counted. -/
def After (capacity : Nat) (i : ω) (mid : List (Event ω ρ)) : Slot ω ρ → Prop
  | .free => False
  | .taken j => j = i ∧ (∀ e ∈ mid, e.isElsewhere) ∨ Answered capacity i mid
  | .settled _ _ age => ∃ newer r older, mid = newer ++ Event.settled i r :: older ∧
      age ≤ newer.countP Event.isElsewhere

/-- What was answered stays answered. -/
theorem Answered.cons {i : ω} {mid : List (Event ω ρ)} (h : Answered capacity i mid) (e : Event ω ρ) :
    Answered capacity i (e :: mid) := by
  obtain ⟨newer, r, older, rfl, hage⟩ := h
  refine ⟨e :: newer, r, older, rfl, Nat.le_trans hage ?_⟩
  exact (List.sublist_cons_self e newer).countP_le

/-- A step after work was begun. -/
theorem After.next {i : ω} {mid : List (Event ω ρ)} {c c' : Slot ω ρ} {e : Event ω ρ}
    (h : After capacity i mid c) (hnext : Next capacity c e c') : After capacity i (e :: mid) c' := by
  cases hnext with
  | begin_free j => exact h.elim
  | begin_forgotten j hage =>
      obtain ⟨newer, r, older, rfl, hcount⟩ := h
      exact .inr (Answered.cons ⟨newer, r, older, rfl, Nat.le_trans hage hcount⟩ _)
  | settle j r =>
      rcases h with ⟨rfl, -⟩ | ⟨newer, r', older, rfl, -⟩
      · exact ⟨[], r, mid, rfl, Nat.zero_le _⟩
      · exact ⟨_ :: newer, r', older, rfl, Nat.zero_le _⟩
  | settle_free j r => exact h.elim
  | settle_forgotten j r hage =>
      obtain ⟨newer, r', older, rfl, -⟩ := h
      exact ⟨_ :: newer, r', older, rfl, Nat.zero_le _⟩
  | elsewhere_free => exact h.elim
  | elsewhere_taken j =>
      rcases h with ⟨hj, hmid⟩ | h
      · exact .inl ⟨hj, fun e he => (List.mem_cons.mp he).elim (fun heq => heq ▸ rfl) (hmid e)⟩
      · exact .inr (h.cons _)
  | elsewhere_settled j r age =>
      obtain ⟨newer, r', older, rfl, hcount⟩ := h
      refine ⟨.elsewhere :: newer, r', older, rfl, ?_⟩
      rw [List.countP_cons_of_pos rfl]
      omega

/-- What a slot is after work was begun in it. -/
theorem Trace.after {i : ω} {mid early : List (Event ω ρ)} {c : Slot ω ρ}
    (h : Trace capacity (mid ++ Event.begun i :: early) c) : After capacity i mid c := by
  induction mid generalizing c with
  | nil =>
      cases h with
      | cons _ hnext => cases hnext <;> exact .inl ⟨rfl, fun e he => absurd he (by simp)⟩
  | cons e mid ih =>
      cases h with
      | cons h hnext => exact (ih h).next hnext

/-- **Work begins again only when the outcome was forgotten.** -/
theorem Trace.begun_apart {i j : ω} {later mid early : List (Event ω ρ)} {c : Slot ω ρ}
    (h : Trace capacity (later ++ Event.begun j :: (mid ++ Event.begun i :: early)) c) :
    Answered capacity i mid := by
  obtain ⟨c', h⟩ := h.of_append
  cases h with
  | cons h hnext =>
      have hafter := h.after
      cases hnext with
      | begin_free => exact hafter.elim
      | begin_forgotten _ hage =>
          obtain ⟨newer, r, older, rfl, hcount⟩ := hafter
          exact ⟨newer, r, older, rfl, Nat.le_trans hage hcount⟩

/-- **An outcome is remembered** as long as fewer other slots than the capacity are settled: nothing
begins in the slot, and it is settled only with that outcome. -/
theorem Trace.remembered {i : ω} {r : ρ} {newer older : List (Event ω ρ)} {c : Slot ω ρ}
    (h : Trace capacity (newer ++ Event.settled i r :: older) c)
    (hrecent : newer.countP Event.isElsewhere < capacity) :
    c = .settled i r newer.length ∧ ∀ e ∈ newer, e.isElsewhere := by
  induction newer generalizing c with
  | nil =>
      cases h with
      | cons _ hnext => cases hnext <;> exact ⟨rfl, fun e he => absurd he (by simp)⟩
  | cons e newer ih =>
      cases h with
      | cons h hnext =>
          have hcount : newer.countP Event.isElsewhere < capacity :=
            Nat.lt_of_le_of_lt (List.sublist_cons_self e newer).countP_le hrecent
          obtain ⟨rfl, hall⟩ := ih h hcount
          have hlen : newer.countP Event.isElsewhere = newer.length := List.countP_eq_length.mpr hall
          cases hnext with
          | begin_forgotten _ hage => omega
          | settle_forgotten _ _ hage => omega
          | elsewhere_settled =>
              exact ⟨rfl, fun e he => (List.mem_cons.mp he).elim (fun heq => heq ▸ rfl) (hall e)⟩

end OnceSlot
end VariantOne
