import Mathlib.Data.List.Basic
import VariantOne.Lib.Lines

/-!
# Lines of a text

`str.splitlines` ends a line at every character that Unicode knows to end one, and at
a carriage return with the newline after it.  A text that is made of lines with
newlines after them is split into the pieces of each (`splitLines_lines`); a line
without such a character is one piece (`splitLines_plain`).

Nothing is said of a text with other line ends inside a line, except that no piece contains one
(`unbroken_of_mem_splitLines`).  This is what the readers of patches need: the lines of a file that has
none of these characters are its pieces, and a piece is never two lines.
-/

namespace VariantOne

/-- The characters that end a line, as `str.splitlines` sees them. -/
def isLineEnd (c : Char) : Bool :=
  let n := c.toNat
  (10 ≤ n && n ≤ 13) || (28 ≤ n && n ≤ 30) || n == 0x85 || n == 0x2028 || n == 0x2029

/-- `str.splitlines`, with the line read so far in reverse. -/
def splitLines : List Char → List Char → List (List Char)
  | [], [] => []
  | [], line => [line.reverse]
  | '\r' :: '\n' :: cs, line => line.reverse :: splitLines cs []
  | c :: cs, line =>
      if isLineEnd c then line.reverse :: splitLines cs [] else splitLines cs (c :: line)

/-- No character of the text ends a line. -/
def Unbroken (s : List Char) : Prop := ∀ c ∈ s, isLineEnd c = false

instance (s : List Char) : Decidable (Unbroken s) :=
  List.decidableBAll (fun c => isLineEnd c = false) s

theorem isLineEnd_newline : isLineEnd '\n' = true := by decide

theorem isLineEnd_return : isLineEnd '\r' = true := by decide

theorem unbroken_nil : Unbroken [] := fun _ h => absurd h List.not_mem_nil

theorem unbroken_cons {c : Char} {s : List Char} :
    Unbroken (c :: s) ↔ isLineEnd c = false ∧ Unbroken s := List.forall_mem_cons

theorem unbroken_append {s t : List Char} : Unbroken (s ++ t) ↔ Unbroken s ∧ Unbroken t :=
  List.forall_mem_append

theorem Unbroken.reverse {s : List Char} (h : Unbroken s) : Unbroken s.reverse :=
  fun c hc => h c (List.mem_reverse.mp hc)

theorem splitLines_end {line : List Char} (h : line ≠ []) : splitLines [] line = [line.reverse] := by
  cases line with
  | nil => exact absurd rfl h
  | cons c line => rfl

theorem splitLines_return_cons (cs line : List Char) :
    splitLines ('\r' :: '\n' :: cs) line = line.reverse :: splitLines cs [] := rfl

/-- A character that does not begin a carriage return with a newline. -/
theorem splitLines_cons {c : Char} {cs : List Char} (hreturn : ∀ rest, c = '\r' → cs ≠ '\n' :: rest)
    (line : List Char) : splitLines (c :: cs) line =
      if isLineEnd c then line.reverse :: splitLines cs [] else splitLines cs (c :: line) := by
  rw [splitLines]
  intro rest hc hcs
  exact hreturn rest hc hcs

theorem splitLines_cons_of_unbroken {c : Char} (h : isLineEnd c = false) (cs line : List Char) :
    splitLines (c :: cs) line = splitLines cs (c :: line) := by
  have hreturn : c ≠ '\r' := fun he => by simp [he, isLineEnd_return] at h
  rw [splitLines_cons fun _ hc => absurd hc hreturn, h]
  rfl

theorem splitLines_cons_of_end {c : Char} {cs : List Char} (h : isLineEnd c = true)
    (hreturn : ∀ rest, c = '\r' → cs ≠ '\n' :: rest) (line : List Char) :
    splitLines (c :: cs) line = line.reverse :: splitLines cs [] := by
  rw [splitLines_cons hreturn, h]
  rfl

theorem splitLines_newline_cons (cs line : List Char) :
    splitLines ('\n' :: cs) line = line.reverse :: splitLines cs [] :=
  splitLines_cons_of_end isLineEnd_newline (fun _ hc => absurd hc (by decide)) line

/-- **A newline ends a line**, alone or after a carriage return. -/
theorem splitLines_append_newline (s t line : List Char) :
    splitLines (s ++ '\n' :: t) line = splitLines (s ++ ['\n']) line ++ splitLines t [] := by
  induction s, line using splitLines.induct with
  | case1 =>
      rw [List.nil_append, List.nil_append, splitLines_newline_cons, splitLines_newline_cons]
      rfl
  | case2 line hline =>
      rw [List.nil_append, List.nil_append, splitLines_newline_cons, splitLines_newline_cons]
      rfl
  | case3 line cs ih =>
      rw [List.cons_append, List.cons_append, splitLines_return_cons, List.cons_append, List.cons_append,
        splitLines_return_cons, ih, List.cons_append]
  | case4 c cs line hreturn hend ih =>
      cases cs with
      | nil =>
          by_cases hc : c = '\r'
          · rw [hc]
            show splitLines ('\r' :: '\n' :: t) line = splitLines ('\r' :: ['\n']) line ++ _
            rw [splitLines_return_cons, splitLines_return_cons]
            rfl
          · rw [List.singleton_append, List.singleton_append,
              splitLines_cons_of_end hend (fun _ he => absurd he hc),
              splitLines_cons_of_end hend (fun _ he => absurd he hc), splitLines_newline_cons,
              splitLines_newline_cons]
            rfl
      | cons d cs =>
          have hd : ∀ rest, c = '\r' → d :: cs ≠ '\n' :: rest := fun rest hc he =>
            hreturn rest hc he
          have hsep : ∀ u rest, c = '\r' → d :: cs ++ u ≠ '\n' :: rest := by
            intro u rest hc he
            rw [List.cons_append, List.cons.injEq] at he
            exact hd cs hc (by rw [he.1])
          show splitLines (c :: (d :: cs ++ '\n' :: t)) line =
            splitLines (c :: (d :: cs ++ ['\n'])) line ++ _
          rw [splitLines_cons_of_end hend (hsep _), splitLines_cons_of_end hend (hsep _), ih]
          rfl
  | case5 c cs line hreturn hend ih =>
      have hc : isLineEnd c = false := by simpa using hend
      rw [List.cons_append, List.cons_append, splitLines_cons_of_unbroken hc,
        splitLines_cons_of_unbroken hc, ih]

theorem splitLines_lines (ls : List (List Char)) :
    splitLines (Lines.lines '\n' ls) [] = ls.flatMap fun l => splitLines (l ++ ['\n']) [] := by
  induction ls with
  | nil => rfl
  | cons l ls ih =>
      rw [Lines.lines_cons, splitLines_append_newline, ih, List.flatMap_cons]

theorem splitLines_append_of_unbroken {s : List Char} (h : Unbroken s) (t line : List Char) :
    splitLines (s ++ t) line = splitLines t (s.reverse ++ line) := by
  induction s generalizing line with
  | nil => rfl
  | cons c s ih =>
      obtain ⟨hc, hs⟩ := unbroken_cons.mp h
      rw [List.cons_append, splitLines_cons_of_unbroken hc, ih hs, List.reverse_cons,
        List.append_assoc, List.singleton_append]

/-- **A line that nothing breaks is one piece.** -/
theorem splitLines_plain {s : List Char} (h : Unbroken s) : splitLines (s ++ ['\n']) [] = [s] := by
  rw [splitLines_append_of_unbroken h, splitLines_newline_cons, List.append_nil,
    List.reverse_reverse]
  rfl

theorem splitLines_plain_return {s : List Char} (h : Unbroken s) :
    splitLines (s ++ ['\r', '\n']) [] = [s] := by
  rw [splitLines_append_of_unbroken h, splitLines_return_cons, List.append_nil, List.reverse_reverse]
  rfl

theorem splitLines_rest {s : List Char} (h : Unbroken s) (hne : s ≠ []) : splitLines s [] = [s] := by
  have hsplit := splitLines_append_of_unbroken h [] []
  rw [List.append_nil, List.append_nil] at hsplit
  rw [hsplit]
  rw [splitLines_end fun hnil => hne (List.reverse_eq_nil_iff.mp hnil), List.reverse_reverse]

theorem splitLines_eq_nil {s line : List Char} (h : splitLines s line = []) :
    s = [] ∧ line = [] := by
  induction s, line using splitLines.induct with
  | case1 => exact ⟨rfl, rfl⟩
  | case2 line hne =>
      rw [splitLines_end hne] at h
      exact absurd h (List.cons_ne_nil _ _)
  | case3 line cs ih =>
      rw [splitLines_return_cons] at h
      exact absurd h (List.cons_ne_nil _ _)
  | case4 c cs line hreturn hend ih =>
      rw [splitLines_cons_of_end hend fun rest hc he => hreturn rest hc he] at h
      exact absurd h (List.cons_ne_nil _ _)
  | case5 c cs line hreturn hend ih =>
      have hc : isLineEnd c = false := by simpa using hend
      rw [splitLines_cons_of_unbroken hc] at h
      exact absurd (ih h).2 (List.cons_ne_nil _ _)

/-- The pieces of a text have no character that ends a line. -/
theorem unbroken_of_mem_splitLines {s line piece : List Char} (hline : Unbroken line)
    (h : piece ∈ splitLines s line) : Unbroken piece := by
  induction s, line using splitLines.induct with
  | case1 => exact absurd h List.not_mem_nil
  | case2 line hne =>
      rw [splitLines_end hne] at h
      rw [List.mem_singleton.mp h]
      exact hline.reverse
  | case3 line cs ih =>
      rw [splitLines_return_cons] at h
      rcases List.mem_cons.mp h with rfl | h
      · exact hline.reverse
      · exact ih unbroken_nil h
  | case4 c cs line hreturn hend ih =>
      rw [splitLines_cons_of_end hend fun rest hc he => hreturn rest hc he] at h
      rcases List.mem_cons.mp h with rfl | h
      · exact hline.reverse
      · exact ih unbroken_nil h
  | case5 c cs line hreturn hend ih =>
      have hc : isLineEnd c = false := by simpa using hend
      rw [splitLines_cons_of_unbroken hc] at h
      exact ih (unbroken_cons.mpr ⟨hc, hline⟩) h

end VariantOne
