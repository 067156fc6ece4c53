import Mathlib.Data.List.Basic
import Mathlib.Data.List.Infix

/-!
# Lines on a stream

A stream is a list of symbols, one of which ends a line.  `readline n` takes a
line off the stream, its terminator included, or `n` symbols of it; `lines ls`
is the stream that a writer of the lines `ls` leaves behind.

* `readline_line`, `readline_tail`: what a read takes that is allowed enough;
* `take_lines`: a stream that is cut somewhere ends after some of its lines, or
  inside the next one;
* `reads_lines`: reading line after line, with any decoder.
-/

namespace VariantOne
namespace Lines

variable {α : Type*} [DecidableEq α] (nl : α)

/-- The length of the first line, its terminator included. -/
def lineLength : List α → Nat
  | [] => 0
  | a :: s => if a = nl then 1 else lineLength s + 1

/-- `stream.readline(n)`: what is read, and what is left. -/
def readline (n : Nat) (s : List α) : List α × List α :=
  (s.take (min n (lineLength nl s)), s.drop (min n (lineLength nl s)))

/-- The stream of some lines. -/
def lines (ls : List (List α)) : List α := (ls.map (· ++ [nl])).flatten

variable {nl}

theorem lineLength_line {body rest : List α} (h : nl ∉ body) :
    lineLength nl (body ++ nl :: rest) = body.length + 1 := by
  induction body with
  | nil => simp [lineLength]
  | cons a body ih =>
      obtain ⟨ha, hbody⟩ := List.ne_and_not_mem_of_not_mem_cons h
      rw [List.cons_append, lineLength, if_neg ha.symm, ih hbody, List.length_cons]

theorem lineLength_tail {s : List α} (h : nl ∉ s) : lineLength nl s = s.length := by
  induction s with
  | nil => rfl
  | cons a s ih =>
      obtain ⟨ha, hs⟩ := List.ne_and_not_mem_of_not_mem_cons h
      rw [lineLength, if_neg ha.symm, ih hs, List.length_cons]

/-- A read that is allowed a whole line takes it. -/
theorem readline_line {n : Nat} {body rest : List α} (h : nl ∉ body) (hn : body.length + 1 ≤ n) :
    readline nl n (body ++ nl :: rest) = (body ++ [nl], rest) := by
  unfold readline
  rw [lineLength_line h, Nat.min_eq_right hn]
  simp [List.take_append, List.drop_append]

/-- A read that is allowed all of an unfinished line takes it. -/
theorem readline_tail {n : Nat} {s : List α} (h : nl ∉ s) (hn : s.length ≤ n) :
    readline nl n s = (s, []) := by
  unfold readline
  rw [lineLength_tail h, Nat.min_eq_right hn]
  simp

omit [DecidableEq α] in
@[simp] theorem lines_nil : lines nl [] = [] := rfl

omit [DecidableEq α] in
theorem lines_cons (l : List α) (ls : List (List α)) :
    lines nl (l :: ls) = l ++ nl :: lines nl ls := by
  simp [lines]

omit [DecidableEq α] in
/-- **Cutting a stream of lines** leaves some of them, and a part of the next
one without its terminator. -/
theorem take_lines (ls : List (List α)) (n : Nat) :
    ∃ k cut, (lines nl ls).take n = lines nl (ls.take k) ++ cut ∧ k ≤ ls.length ∧
      (cut = [] ∨ ∃ l, ls[k]? = some l ∧ cut <+: l) := by
  induction ls generalizing n with
  | nil => exact ⟨0, [], by simp, Nat.le_refl _, .inl rfl⟩
  | cons l ls ih =>
      rw [lines_cons]
      by_cases hn : n ≤ l.length
      · refine ⟨0, l.take n, ?_, Nat.zero_le _, .inr ⟨l, rfl, List.take_prefix n l⟩⟩
        simp [List.take_append_of_le_length hn]
      · obtain ⟨k, cut, hcut, hk, hlast⟩ := ih (n - (l.length + 1))
        obtain ⟨m, rfl⟩ : ∃ m, n = l.length + 1 + m := ⟨n - (l.length + 1), by omega⟩
        rw [Nat.add_sub_cancel_left] at hcut
        refine ⟨k + 1, cut, ?_, Nat.succ_le_succ hk, hlast⟩
        rw [List.take_succ_cons, lines_cons, List.append_assoc, List.cons_append, ← hcut]
        simp [List.take_append, Nat.add_assoc, Nat.add_comm 1 m]

/-! ## Reading line after line -/

variable {ρ : Type*}

/-- The results of the next `n` reads. -/
def reads (read : List α → ρ × List α) : Nat → List α → List ρ
  | 0, _ => []
  | n + 1, s => (read s).1 :: reads read n (read s).2

omit [DecidableEq α] in
/-- Reading an exhausted stream. -/
theorem reads_end {read : List α → ρ × List α} {e : ρ} (hend : read [] = (e, [])) (n : Nat) :
    reads read n [] = List.replicate n e := by
  induction n with
  | zero => rfl
  | succ n ih => rw [reads, hend, ih, List.replicate_succ]

omit [DecidableEq α] in
/-- **Reading line after line** gives what the decoder makes of each. -/
theorem reads_lines {read : List α → ρ × List α} {f : List α → ρ} {ls : List (List α)}
    (hread : ∀ l ∈ ls, ∀ rest, read (l ++ nl :: rest) = (f l, rest)) (n : Nat) (rest : List α) :
    reads read (ls.length + n) (lines nl ls ++ rest) = ls.map f ++ reads read n rest := by
  induction ls with
  | nil => simp
  | cons l ls ih =>
      rw [lines_cons, List.append_assoc, List.cons_append, List.length_cons, Nat.add_right_comm,
        reads, hread l List.mem_cons_self, ih fun l hl => hread l (List.mem_cons_of_mem _ hl)]
      rfl

end Lines
end VariantOne
