import VariantOne.Lib.Json
import VariantOne.Lib.Utf8
import Mathlib.Algebra.BigOperators.Group.List.Basic

/-!
# The length of canonical JSON

The canonical text of an object is as long as its entries are together (`length_dumps_obj`), whatever
order they stand in: so two objects whose entries have the same lengths have texts of the same length.

The text of an object is its entries between commas, so its length is a sum over the entries, and sorting
them permutes the summands.  A text of plain characters is as long as it has characters, with its quotes
(`utf8Length_quoted`), and a longer number is not written shorter (`length_toDigits_mono`).
-/

namespace VariantOne
namespace Json

/-! ## 1.  Texts -/

@[simp] theorem utf8Length_nil : utf8Length [] = 0 := rfl

@[simp] theorem utf8Length_cons (c : Char) (s : List Char) :
    utf8Length (c :: s) = c.utf8Size + utf8Length s := by
  simp [utf8Length]

@[simp] theorem utf8Length_append (s t : List Char) :
    utf8Length (s ++ t) = utf8Length s + utf8Length t := by
  simp [utf8Length]

/-- The bytes of a text are as many as its length in UTF-8. -/
theorem length_encode (s : List Char) : (Utf8.encode s).length = utf8Length s := by
  induction s with
  | nil => rfl
  | cons c s ih =>
      show (String.utf8EncodeChar c ++ Utf8.encode s).length = _
      rw [List.length_append, ih, utf8Length_cons, String.length_utf8EncodeChar]

/-- A character that JSON writes as itself, in one byte. -/
def isPlainChar (c : Char) : Bool := escapeChar c == [c] && c.utf8Size == 1

/-- A plain text is as long as it has characters. -/
theorem utf8Length_escape {s : List Char} (h : ∀ c ∈ s, isPlainChar c = true) :
    utf8Length (escape s) = s.length := by
  induction s with
  | nil => rfl
  | cons c s ih =>
      have hc := h c (by simp)
      simp only [isPlainChar, Bool.and_eq_true, beq_iff_eq] at hc
      have hrest := ih fun d hd => h d (by simp [hd])
      show utf8Length (escapeChar c ++ escape s) = _
      rw [utf8Length_append, hrest, hc.1, utf8Length_cons, hc.2, utf8Length_nil, List.length_cons]
      omega

theorem utf8Length_quoted {s : String} (h : ∀ c ∈ s.toList, isPlainChar c = true) :
    utf8Length (quoted s) = s.length + 2 := by
  have hquote : quote.utf8Size = 1 := rfl
  unfold quoted
  rw [utf8Length_cons, utf8Length_append, utf8Length_escape h, utf8Length_cons, utf8Length_nil, hquote,
    String.length_toList]
  omega

/-- Digits are plain, so a number is as long as it has digits. -/
theorem utf8Length_intText (n : Nat) : utf8Length (intText n) = (Nat.toDigits 10 n).length := by
  have hdigit : ∀ c : Char, c.isDigit = true → c.utf8Size = 1 := by
    intro c hc
    rw [Char.utf8Size_eq_one_iff]
    simp only [Char.isDigit, Bool.and_eq_true, decide_eq_true_eq] at hc
    exact UInt32.le_trans hc.2 (by decide)
  have hall : ∀ s : List Char, (∀ c ∈ s, c.isDigit = true) → utf8Length s = s.length := by
    intro s hs
    induction s with
    | nil => rfl
    | cons c s ih =>
        rw [utf8Length_cons, hdigit c (hs c (by simp)), ih fun d hd => hs d (by simp [hd]), List.length_cons]
        omega
  exact hall _ fun c hc => Nat.isDigit_of_mem_toDigits (by decide) (by decide) hc

/-- A smaller number has no more digits. -/
theorem length_toDigits_mono {m n : Nat} (h : m ≤ n) :
    (Nat.toDigits 10 m).length ≤ (Nat.toDigits 10 n).length := by
  rw [Nat.length_toDigits_le_iff (by decide) Nat.length_toDigits_pos]
  exact h.trans_lt ((Nat.length_toDigits_le_iff (by decide) Nat.length_toDigits_pos).mp le_rfl)

/-! ## 2.  Objects -/

/-- The length of an entry with its colon. -/
def entryLength (e : String × Json) : Nat :=
  utf8Length (quoted e.1) + 1 + utf8Length (render e.2)

theorem utf8Length_renderEntries (es : List (String × Json)) :
    utf8Length (renderEntries es) = 1 + (es.map fun e => entryLength e + 1).sum := by
  have hbrace : Char.utf8Size '\x7d' = 1 := rfl
  have hcomma : Char.utf8Size ',' = 1 := rfl
  have hcolon : Char.utf8Size ':' = 1 := rfl
  induction es with
  | nil => rfl
  | cons e es ih =>
      obtain ⟨k, v⟩ := e
      rw [renderEntries, utf8Length_cons, utf8Length_append, utf8Length_cons, utf8Length_append, ih,
        List.map_cons, List.sum_cons, hcomma, hcolon]
      dsimp only [entryLength]
      omega

/-- An object is as long as its entries, their separators and two braces. -/
theorem utf8Length_obj {es : List (String × Json)} (hne : es ≠ []) :
    utf8Length (render (.obj es)) = 1 + (es.map fun e => entryLength e + 1).sum := by
  have hbrace : Char.utf8Size '\x7b' = 1 := rfl
  have hcolon : Char.utf8Size ':' = 1 := rfl
  cases es with
  | nil => exact absurd rfl hne
  | cons e es =>
      obtain ⟨k, v⟩ := e
      rw [render, utf8Length_cons, utf8Length_append, utf8Length_cons, utf8Length_append,
        utf8Length_renderEntries, List.map_cons, List.sum_cons, hbrace, hcolon]
      dsimp only [entryLength]
      omega

/-- **The length of the canonical text of an object**: the order of the entries does not matter. -/
theorem length_dumps_obj {es : List (String × Json)} (hne : es ≠ []) :
    utf8Length (dumps (.obj es)) = 1 + (es.map fun e => entryLength (e.1, canon e.2) + 1).sum := by
  have hperm := (Dict.sort_perm (canonEntries es)).map fun e => entryLength e + 1
  have hne' : Dict.sort (canonEntries es) ≠ [] := by
    intro h
    have hnil := (Dict.sort_perm (canonEntries es)).length_eq
    rw [h, canonEntries_eq_map, List.length_map] at hnil
    exact hne (List.length_eq_zero_iff.mp hnil.symm)
  show utf8Length (render (.obj (Dict.sort (canonEntries es)))) = _
  rw [utf8Length_obj hne', hperm.sum_eq, canonEntries_eq_map, List.map_map]
  rfl

end Json
end VariantOne
