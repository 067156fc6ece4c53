import Mathlib.Data.List.Nodup
import Mathlib.Data.List.Range

/-!
# Linked logs

The rows of a log are numbered without a gap, and each names the row before it.  `tip` is
the row a log ends with, or where it starts when it is empty: what the next row has to
name.

`log_append` takes a log apart at any place.  From the definition follow the numbers of a log and the
parents it names (`Log.seqs`, `Log.parents`), and that a number determines its row (`Log.eq_of_seq`).
-/

namespace VariantOne
namespace Linked

variable {ρ κ : Type}

/-- The row a log ends with, or its start. -/
def tip (ident : ρ → κ) (start : κ) (rows : List ρ) : κ := rows.foldl (fun _ r => ident r) start

/-- Rows numbered from `n`, each naming the row before it. -/
def Log (seq : ρ → Nat) (ident parent : ρ → κ) : Nat → κ → List ρ → Prop
  | _, _, [] => True
  | n, p, r :: rs => seq r = n ∧ parent r = p ∧ Log seq ident parent (n + 1) (ident r) rs

variable {seq : ρ → Nat} {ident parent : ρ → κ}

@[simp] theorem tip_nil (p : κ) : tip ident p [] = p := rfl

@[simp] theorem tip_cons (p : κ) (r : ρ) (rs : List ρ) :
    tip ident p (r :: rs) = tip ident (ident r) rs := rfl

theorem tip_append (p : κ) (xs ys : List ρ) :
    tip ident p (xs ++ ys) = tip ident (tip ident p xs) ys := List.foldl_append

/-- A log that is not empty ends with its last row. -/
theorem getLast?_map_ident {rows : List ρ} (h : rows ≠ []) (p : κ) :
    (rows.map ident).getLast? = some (tip ident p rows) := by
  induction rows generalizing p with
  | nil => exact absurd rfl h
  | cons r rs ih =>
      cases rs with
      | nil => rfl
      | cons r' rs =>
          rw [List.map_cons, List.map_cons, List.getLast?_cons_cons, ← List.map_cons]
          exact ih (by simp) (ident r)

/-- A log goes on where its first part ends. -/
theorem log_append {n : Nat} {p : κ} {xs ys : List ρ} :
    Log seq ident parent n p (xs ++ ys) ↔
      Log seq ident parent n p xs ∧
        Log seq ident parent (n + xs.length) (tip ident p xs) ys := by
  induction xs generalizing n p with
  | nil => simp [Log]
  | cons x xs ih =>
      have hlen : n + (x :: xs).length = n + 1 + xs.length := by
        rw [List.length_cons]
        omega
      show (_ ∧ _ ∧ Log seq ident parent (n + 1) (ident x) (xs ++ ys)) ↔ _
      rw [ih, hlen]
      show _ ↔ (_ ∧ _ ∧ _) ∧ _
      simp only [and_assoc, tip_cons]

/-- The numbers of a log run without a gap. -/
theorem Log.seqs {n : Nat} {p : κ} {rows : List ρ} (h : Log seq ident parent n p rows) :
    rows.map seq = List.range' n rows.length := by
  induction rows generalizing n p with
  | nil => rfl
  | cons r rs ih =>
      obtain ⟨hseq, -, hrest⟩ := h
      rw [List.map_cons, hseq, ih hrest, List.length_cons, List.range'_succ]

/-- The parents of a log are its rows, one place on. -/
theorem Log.parents {n : Nat} {p : κ} {rows : List ρ} (h : Log seq ident parent n p rows) :
    rows.map parent = (p :: rows.map ident).dropLast := by
  induction rows generalizing n p with
  | nil => rfl
  | cons r rs ih =>
      obtain ⟨-, hparent, hrest⟩ := h
      rw [List.map_cons, hparent, ih hrest, List.map_cons, List.dropLast_cons_cons]

/-- A log is in increasing order of its numbers. -/
theorem Log.increasing {n : Nat} {p : κ} {rows : List ρ} (h : Log seq ident parent n p rows) :
    rows.Pairwise fun r r' => seq r ≤ seq r' := by
  have hseqs : (rows.map seq).Pairwise (· ≤ ·) := by
    rw [h.seqs]
    exact List.Pairwise.imp Nat.le_of_lt List.pairwise_lt_range'
  rwa [List.pairwise_map] at hseqs

/-- A row's number is the place it stands at. -/
theorem Log.bounds {n : Nat} {p : κ} {rows : List ρ} (h : Log seq ident parent n p rows) {r : ρ}
    (hr : r ∈ rows) : n ≤ seq r ∧ seq r < n + rows.length := by
  have hmem : seq r ∈ rows.map seq := List.mem_map_of_mem hr
  rw [h.seqs, List.mem_range'_1] at hmem
  exact hmem

/-- In a log, a number determines the row. -/
theorem Log.eq_of_seq {n : Nat} {p : κ} {rows : List ρ} (h : Log seq ident parent n p rows)
    {r r' : ρ} (hr : r ∈ rows) (hr' : r' ∈ rows) (hseq : seq r = seq r') : r = r' := by
  have hnodup : (rows.map seq).Nodup := by
    rw [h.seqs]
    exact List.nodup_range'
  exact List.inj_on_of_nodup_map hnodup hr hr' hseq

end Linked
end VariantOne
