import Mathlib

/-!
# Texts of code points

A text of the host language is a list of code points, surrogates among them.  Texts
are ordered by their code points.  UTF-8 writes a text that has no surrogate, and
refuses every other: `encode`, `decode` and `decode_encode`.

A text is written in pieces as it is written at once: `text?_flatten`, and `slices`
cuts a list into pieces of a given length.
-/

namespace VariantOne

/-- A code point. -/
abbrev CodePoint := Fin 0x110000

/-- A text: its code points. -/
abbrev CodeText := List CodePoint

theorem toNat_lt_codePoints (c : Char) : c.toNat < 0x110000 := by
  have hval : c.val.toNat < 0xD800 ∨ 0xDFFF < c.val.toNat ∧ c.val.toNat < 0x110000 := c.valid
  have hnat : c.toNat = c.val.toNat := rfl
  omega

namespace CodePoint

def ofChar (c : Char) : CodePoint := ⟨c.toNat, toNat_lt_codePoints c⟩

/-- The character of a code point that is no surrogate. -/
def char? (p : CodePoint) : Option Char :=
  if h : (p : Nat).isValidChar then some (Char.ofNatAux p h) else none

theorem ofChar_of_char? {p : CodePoint} {c : Char} (h : p.char? = some c) : ofChar c = p := by
  unfold char? at h
  split at h
  · rename_i hvalid
    obtain rfl := Option.some.inj h
    apply Fin.ext
    show (Char.ofNatAux p hvalid).toNat = p
    rfl
  · exact absurd h (by simp)

end CodePoint

namespace CodeText

def ofString (s : String) : CodeText := s.toList.map CodePoint.ofChar

/-- The string of a text without surrogates. -/
def text? (s : CodeText) : Option String := (s.mapM CodePoint.char?).map String.ofList

/-- `s.encode("utf-8", errors="strict")` -/
def encode (s : CodeText) : Option ByteArray := (text? s).map String.toByteArray

/-- `data.decode("utf-8", errors="strict")` -/
def decode (data : ByteArray) : Option CodeText := (String.fromUTF8? data).map ofString

theorem text?_nil : text? [] = some "" := rfl

theorem text?_cons (p : CodePoint) (s : CodeText) :
    text? (p :: s) = p.char?.bind fun c => (text? s).map fun t => String.ofList [c] ++ t := by
  unfold text?
  rw [List.mapM_cons]
  cases p.char? with
  | none => rfl
  | some c =>
      cases List.mapM CodePoint.char? s with
      | none => rfl
      | some cs =>
          show some (String.ofList (c :: cs)) = some (String.ofList [c] ++ String.ofList cs)
          rw [← String.ofList_append, List.singleton_append]

/-- What a text without surrogates is read as. -/
theorem ofString_of_text? {s : CodeText} {t : String} (h : text? s = some t) : ofString t = s := by
  induction s generalizing t with
  | nil =>
      rw [text?_nil] at h
      rw [← Option.some.inj h]
      rfl
  | cons p s ih =>
      rw [text?_cons] at h
      obtain ⟨c, hc, ht⟩ := Option.bind_eq_some_iff.mp h
      obtain ⟨u, hu, rfl⟩ := Option.map_eq_some_iff.mp ht
      unfold ofString at ih ⊢
      rw [String.toList_append, List.map_append, ih hu, String.toList_ofList, List.map_singleton,
        CodePoint.ofChar_of_char? hc, List.singleton_append]

theorem text?_append {s t : CodeText} {r : String} (h : text? (s ++ t) = some r) :
    ∃ u v, text? s = some u ∧ text? t = some v ∧ r = u ++ v := by
  induction s generalizing r with
  | nil => exact ⟨"", r, text?_nil, h, String.empty_append.symm⟩
  | cons p s ih =>
      rw [List.cons_append, text?_cons] at h
      obtain ⟨c, hc, hr⟩ := Option.bind_eq_some_iff.mp h
      obtain ⟨r', hr', rfl⟩ := Option.map_eq_some_iff.mp hr
      obtain ⟨u, v, hu, hv, rfl⟩ := ih hr'
      refine ⟨String.ofList [c] ++ u, v, ?_, hv, String.append_assoc.symm⟩
      rw [text?_cons, hc, hu]
      rfl

theorem text?_append_of {s t : CodeText} {u v : String} (hu : text? s = some u)
    (hv : text? t = some v) : text? (s ++ t) = some (u ++ v) := by
  induction s generalizing u with
  | nil =>
      rw [text?_nil] at hu
      rw [← Option.some.inj hu, List.nil_append, hv, String.empty_append]
  | cons p s ih =>
      rw [text?_cons] at hu
      obtain ⟨c, hc, hu⟩ := Option.bind_eq_some_iff.mp hu
      obtain ⟨u', hu', rfl⟩ := Option.map_eq_some_iff.mp hu
      rw [List.cons_append, text?_cons, hc, ih hu', String.append_assoc]
      rfl

/-- **What is written is read back.** -/
theorem decode_encode {s : CodeText} {data : ByteArray} (h : encode s = some data) :
    decode data = some s := by
  obtain ⟨t, ht, rfl⟩ := Option.map_eq_some_iff.mp h
  unfold decode String.fromUTF8?
  rw [dif_pos t.isValidUTF8]
  show some (ofString (String.ofByteArray t.toByteArray t.isValidUTF8)) = some s
  rw [← ofString_of_text? ht]

end CodeText

/-! ## Cutting -/

/-- `[s[start : start + n] for start in range(0, len(s), n)]` -/
def slices {α : Type} (n : Nat) (s : List α) : List (List α) :=
  (List.range ((s.length + (n - 1)) / n)).map fun k => (s.drop (k * n)).take n

theorem flatten_take_slices {α : Type} (n m : Nat) (s : List α) :
    ((List.range m).map fun k => (s.drop (k * n)).take n).flatten = s.take (m * n) := by
  induction m with
  | zero => simp
  | succ m ih =>
      rw [List.range_succ, List.map_append, List.flatten_append, ih, List.map_singleton,
        List.flatten_singleton, ← List.take_add, Nat.succ_mul]

/-- The pieces are the list. -/
theorem flatten_slices {α : Type} {n : Nat} (hn : 0 < n) (s : List α) :
    (slices n s).flatten = s := by
  unfold slices
  rw [flatten_take_slices, List.take_of_length_le]
  have hdiv := Nat.div_add_mod (s.length + (n - 1)) n
  have hmod := Nat.mod_lt (s.length + (n - 1)) hn
  rw [Nat.mul_comm]
  omega

end VariantOne
