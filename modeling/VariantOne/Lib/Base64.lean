import Mathlib.Data.List.Basic
import Mathlib.Data.UInt

/-!
# Base64

Three bytes are four letters of six bits each; one or two bytes at the end are fewer, and padding.
`decode_encode`: what was written is read back.

Reading refuses a letter that is not in the alphabet, and padding anywhere but at the end; like the reader
it models it does not look at the bits of the last letter that no byte takes.  `length_encode` and
`mem_encode` say how long a written text is and which letters it is made of.
-/

namespace VariantOne
namespace Base64

/-- The letters, by their values. -/
def alphabet : List Char := "ABCDEFGHIJKLMNOPQRSTUVWXYZabcdefghijklmnopqrstuvwxyz0123456789+/".toList

/-- The letter of six bits. -/
def letter (n : Nat) : Char := alphabet.getD n 'A'

/-- The six bits of a letter. -/
def value? (c : Char) : Option Nat := alphabet.idxOf? c

/-- `base64.b64encode` -/
def encode : List UInt8 → List Char
  | [] => []
  | [a] => [letter (a.toNat / 4), letter (a.toNat % 4 * 16), '=', '=']
  | [a, b] =>
      [letter (a.toNat / 4), letter (a.toNat % 4 * 16 + b.toNat / 16), letter (b.toNat % 16 * 4), '=']
  | a :: b :: c :: rest =>
      letter (a.toNat / 4) :: letter (a.toNat % 4 * 16 + b.toNat / 16) ::
        letter (b.toNat % 16 * 4 + c.toNat / 64) :: letter (c.toNat % 64) :: encode rest

/-- `base64.b64decode(…, validate=True)`, unless it raises: padding ends the text, and the bits of the last
letter that no byte takes are not looked at. -/
def decode : List Char → Option (List UInt8)
  | [] => some []
  | c₁ :: c₂ :: c₃ :: c₄ :: rest => do
      let v₁ ← value? c₁
      let v₂ ← value? c₂
      let a := UInt8.ofNat (v₁ * 4 + v₂ / 16)
      if c₃ = '=' then
        if c₄ = '=' ∧ rest = [] then some [a] else none
      else
        let v₃ ← value? c₃
        let b := UInt8.ofNat (v₂ % 16 * 16 + v₃ / 4)
        if c₄ = '=' then
          if rest = [] then some [a, b] else none
        else
          let v₄ ← value? c₄
          let bytes ← decode rest
          some (a :: b :: UInt8.ofNat (v₃ % 4 * 64 + v₄) :: bytes)
  | _ => none

theorem value?_letter {n : Nat} (h : n < 64) : value? (letter n) = some n := by
  have hall : ∀ n < 64, value? (letter n) = some n := by decide +kernel
  exact hall n h

theorem letter_ne_pad {n : Nat} (h : n < 64) : letter n ≠ '=' := by
  have hall : ∀ n < 64, letter n ≠ '=' := by decide +kernel
  exact hall n h

theorem ofNat_toNat {a : UInt8} {n : Nat} (h : n = a.toNat) : UInt8.ofNat n = a := by
  rw [h, UInt8.ofNat_toNat]

/-- **What was written is read back.** -/
theorem decode_encode (data : List UInt8) : decode (encode data) = some data := by
  induction data using encode.induct with
  | case1 => rfl
  | case2 a =>
      have ha := a.toNat_lt
      rw [encode, decode, value?_letter (by omega), value?_letter (by omega)]
      simp only [Option.bind_eq_bind, Option.bind_some, if_true, and_self]
      rw [ofNat_toNat (a := a) (by omega)]
  | case3 a b =>
      have ha := a.toNat_lt
      have hb := b.toNat_lt
      rw [encode, decode, value?_letter (by omega), value?_letter (by omega), value?_letter (by omega)]
      simp only [Option.bind_eq_bind, Option.bind_some, if_true, if_neg (letter_ne_pad (n := b.toNat % 16 * 4)
        (by omega))]
      rw [ofNat_toNat (a := a) (by omega), ofNat_toNat (a := b) (by omega)]
  | case4 a b c rest ih =>
      have ha := a.toNat_lt
      have hb := b.toNat_lt
      have hc := c.toNat_lt
      rw [encode, decode, value?_letter (by omega), value?_letter (by omega), value?_letter (by omega),
        value?_letter (by omega), ih]
      simp only [Option.bind_eq_bind, Option.bind_some,
        if_neg (letter_ne_pad (n := b.toNat % 16 * 4 + c.toNat / 64) (by omega)),
        if_neg (letter_ne_pad (n := c.toNat % 64) (by omega))]
      rw [ofNat_toNat (a := a) (by omega), ofNat_toNat (a := b) (by omega), ofNat_toNat (a := c) (by omega)]

/-- Three bytes are four letters, and what is left is four letters too. -/
theorem length_encode (data : List UInt8) : (encode data).length = 4 * ((data.length + 2) / 3) := by
  induction data using encode.induct with
  | case1 => rfl
  | case2 a => simp [encode]
  | case3 a b => simp [encode]
  | case4 a b c rest ih =>
      rw [encode]
      simp only [List.length_cons, ih]
      omega

/-- What is written are letters and padding. -/
theorem mem_encode {data : List UInt8} {c : Char} (h : c ∈ encode data) : c ∈ '=' :: alphabet := by
  have hletter : ∀ n, letter n ∈ '=' :: alphabet := by
    intro n
    unfold letter
    rw [List.getD_eq_getElem?_getD]
    cases hn : alphabet[n]? with
    | none => decide
    | some d => exact List.mem_cons_of_mem _ (List.mem_of_getElem? hn)
  induction data using encode.induct with
  | case1 => exact absurd h (by simp [encode])
  | case2 a =>
      simp only [encode, List.mem_cons, List.not_mem_nil, or_false] at h
      rcases h with rfl | rfl | rfl | rfl
      · exact hletter _
      · exact hletter _
      · simp
      · simp
  | case3 a b =>
      simp only [encode, List.mem_cons, List.not_mem_nil, or_false] at h
      rcases h with rfl | rfl | rfl | rfl
      · exact hletter _
      · exact hletter _
      · exact hletter _
      · simp
  | case4 a b c rest ih =>
      simp only [encode, List.mem_cons] at h
      rcases h with rfl | rfl | rfl | rfl | h
      · exact hletter _
      · exact hletter _
      · exact hletter _
      · exact hletter _
      · exact ih h

end Base64
end VariantOne
