import Mathlib
import VariantOne.Lib.Lines

/-!
# Reading UTF-8 with replacement

Bytes are read as text with a replacement character for each part that is not UTF-8:
a character that is begun and not continued is given up at the byte that does not
continue it, and that byte is read afresh.

* `decode_append_newline`, `decode_lines`: a line end ends what was begun, so that the
  lines of a text are the texts of its lines;
* `decode_encode_append`: what was written as UTF-8 is read back, whatever follows it.
-/

namespace VariantOne
namespace Utf8

/-- What is read where the bytes are not UTF-8. -/
def replacement : Char := Char.ofNat 0xFFFD

/-- A character that is begun: how many bytes follow the next one, between which bounds
the next one lies, and the value of the bytes so far. -/
structure Begun where
  more : Nat
  low : Nat
  high : Nat
  value : Nat
  tail : 0x80 ≤ low

/-- The bytes after the second one are only bound to continue. -/
def Begun.tails (more value : Nat) : Begun := ⟨more, 0x80, 0xBF, value, Nat.le_refl _⟩

/-- After the first of three bytes. -/
def Begun.three (n : Nat) : Begun where
  more := 1
  low := if n = 0xE0 then 0xA0 else 0x80
  high := if n = 0xED then 0x9F else 0xBF
  value := n - 0xE0
  tail := by split <;> omega

/-- After the first of four bytes. -/
def Begun.four (n : Nat) : Begun where
  more := 2
  low := if n = 0xF0 then 0x90 else 0x80
  high := if n = 0xF4 then 0x8F else 0xBF
  value := n - 0xF0
  tail := by split <;> omega

/-- The first byte of a character: what can be read of it alone, and what it begins. -/
def first (b : UInt8) : List Char × Option Begun :=
  let n := b.toNat
  if n < 0x80 then ([Char.ofNat n], none)
  else if n < 0xC2 then ([replacement], none)
  else if n < 0xE0 then ([], some (.tails 0 (n - 0xC0)))
  else if n < 0xF0 then ([], some (.three n))
  else if n < 0xF5 then ([], some (.four n))
  else ([replacement], none)

/-- What is read of bytes after what has been begun. -/
def decodeFrom : Option Begun → List UInt8 → List Char
  | none, [] => []
  | some _, [] => [replacement]
  | none, b :: bs => (first b).1 ++ decodeFrom (first b).2 bs
  | some p, b :: bs =>
      if p.low ≤ b.toNat ∧ b.toNat ≤ p.high then
        match p.more with
        | 0 => Char.ofNat (p.value * 64 + (b.toNat - 0x80)) :: decodeFrom none bs
        | more + 1 => decodeFrom (some (.tails more (p.value * 64 + (b.toNat - 0x80)))) bs
      else replacement :: ((first b).1 ++ decodeFrom (first b).2 bs)

/-- `data.decode("utf-8", errors="replace")` -/
def decode (data : List UInt8) : List Char := decodeFrom none data

/-- `text.encode("utf-8")` -/
def encode (text : List Char) : List UInt8 := text.flatMap String.utf8EncodeChar

theorem decodeFrom_some_cons (p : Begun) (b : UInt8) (bs : List UInt8) :
    decodeFrom (some p) (b :: bs) =
      if p.low ≤ b.toNat ∧ b.toNat ≤ p.high then
        match p.more with
        | 0 => Char.ofNat (p.value * 64 + (b.toNat - 0x80)) :: decodeFrom none bs
        | more + 1 => decodeFrom (some (.tails more (p.value * 64 + (b.toNat - 0x80)))) bs
      else replacement :: ((first b).1 ++ decodeFrom (first b).2 bs) := by
  rw [decodeFrom]

theorem decodeFrom_begins {b : UInt8} {p : Begun} (h : first b = ([], some p)) (bs : List UInt8) :
    decodeFrom none (b :: bs) = decodeFrom (some p) bs := by
  rw [decodeFrom, h]
  rfl

theorem decodeFrom_goesOn {p : Begun} {more : Nat} {b : UInt8} (hmore : p.more = more + 1)
    (hb : p.low ≤ b.toNat ∧ b.toNat ≤ p.high) (bs : List UInt8) :
    decodeFrom (some p) (b :: bs) =
      decodeFrom (some (.tails more (p.value * 64 + (b.toNat - 0x80)))) bs := by
  rw [decodeFrom_some_cons, if_pos hb, hmore]

theorem first_ne (b : UInt8) : first b ≠ ([], none) := by
  unfold first
  simp only
  split_ifs <;> simp

/-- Something is read of every byte. -/
theorem decodeFrom_eq_nil {q : Option Begun} {bs : List UInt8} (h : decodeFrom q bs = []) :
    q = none ∧ bs = [] := by
  induction bs generalizing q with
  | nil =>
      cases q with
      | none => exact ⟨rfl, rfl⟩
      | some p => exact absurd h (List.cons_ne_nil _ _)
  | cons b bs ih =>
      cases q with
      | none =>
          rw [decodeFrom, List.append_eq_nil_iff] at h
          exact absurd (Prod.ext h.1 (ih h.2).1) (first_ne b)
      | some p =>
          rw [decodeFrom_some_cons] at h
          split at h
          · split at h
            · exact absurd h (List.cons_ne_nil _ _)
            · exact absurd (ih h).1 (by simp)
          · exact absurd h (List.cons_ne_nil _ _)

/-! ## Lines -/

/-- The byte of a line end. -/
def newline : UInt8 := 0x0A

theorem first_newline : first newline = (['\n'], none) := rfl

/-- **A line end ends what was begun.** -/
theorem decodeFrom_append_newline (q : Option Begun) (a b : List UInt8) :
    decodeFrom q (a ++ newline :: b) = decodeFrom q a ++ '\n' :: decodeFrom none b := by
  induction a generalizing q with
  | nil =>
      cases q with
      | none => rfl
      | some p =>
          have hlow : ¬ (p.low ≤ newline.toNat ∧ newline.toNat ≤ p.high) := by
            have htail := p.tail
            have hval : newline.toNat = 0x0A := rfl
            omega
          rw [List.nil_append, decodeFrom_some_cons, if_neg hlow, first_newline]
          rfl
  | cons c a ih =>
      cases q with
      | none =>
          rw [List.cons_append, decodeFrom, decodeFrom, ih, List.append_assoc]
      | some p =>
          rw [List.cons_append, decodeFrom_some_cons, decodeFrom_some_cons]
          split
          · split
            · rw [ih, List.cons_append]
            · rw [ih]
          · rw [ih, List.cons_append, List.append_assoc]

theorem decode_append_newline (a b : List UInt8) :
    decode (a ++ newline :: b) = decode a ++ '\n' :: decode b := decodeFrom_append_newline none a b

/-- The lines of a text are the texts of its lines. -/
theorem decode_lines (ls : List (List UInt8)) :
    decode (Lines.lines newline ls) = Lines.lines '\n' (ls.map decode) := by
  induction ls with
  | nil => rfl
  | cons l ls ih =>
      rw [Lines.lines_cons, decode_append_newline, ih, List.map_cons, Lines.lines_cons]

/-! ## What was written -/

theorem decodeFrom_tails_succ {more value n : Nat} (bs : List UInt8) (hlow : 0x80 ≤ n)
    (hhigh : n ≤ 0xBF) :
    decodeFrom (some (.tails (more + 1) value)) (UInt8.ofNat n :: bs) =
      decodeFrom (some (.tails more (value * 64 + (n - 0x80)))) bs := by
  have hn : (UInt8.ofNat n).toNat = n := by
    rw [UInt8.toNat_ofNat']
    omega
  rw [decodeFrom, hn, if_pos ⟨hlow, hhigh⟩]
  rfl

theorem decodeFrom_tails_zero {value n : Nat} (bs : List UInt8) (hlow : 0x80 ≤ n)
    (hhigh : n ≤ 0xBF) :
    decodeFrom (some (.tails 0 value)) (UInt8.ofNat n :: bs) =
      Char.ofNat (value * 64 + (n - 0x80)) :: decodeFrom none bs := by
  have hn : (UInt8.ofNat n).toNat = n := by
    rw [UInt8.toNat_ofNat']
    omega
  rw [decodeFrom, hn, if_pos ⟨hlow, hhigh⟩]
  rfl

theorem decode_ascii_cons {n : Nat} (h : n < 0x80) (bs : List UInt8) :
    decode (UInt8.ofNat n :: bs) = Char.ofNat n :: decode bs := by
  have hn : (UInt8.ofNat n).toNat = n := by
    rw [UInt8.toNat_ofNat']
    omega
  have hfirst : first (UInt8.ofNat n) = ([Char.ofNat n], none) := by
    rw [first, hn]
    exact if_pos h
  rw [decode, decodeFrom, hfirst]
  rfl

/-- Three bytes of one character. -/
theorem decode_three_cons {v : Nat} (hlow : 0x800 ≤ v) (hhigh : v ≤ 0xFFFF)
    (hvalid : v < 0xD800 ∨ 0xDFFF < v) (bs : List UInt8) :
    decode (UInt8.ofNat (v / 4096 % 16 + 0xE0) :: UInt8.ofNat (v / 64 % 64 + 0x80) ::
      UInt8.ofNat (v % 64 + 0x80) :: bs) = Char.ofNat v :: decode bs := by
  have hn : (UInt8.ofNat (v / 4096 % 16 + 0xE0)).toNat = v / 4096 + 0xE0 := by
    rw [UInt8.toNat_ofNat']
    omega
  have hfirst : first (UInt8.ofNat (v / 4096 % 16 + 0xE0)) =
      ([], some (.three (v / 4096 + 0xE0))) := by
    rw [first, hn]
    rw [if_neg (by omega), if_neg (by omega), if_neg (by omega), if_pos (by omega)]
  have hm : (UInt8.ofNat (v / 64 % 64 + 0x80)).toNat = v / 64 % 64 + 0x80 := by
    rw [UInt8.toNat_ofNat']
    omega
  have hsecond : (Begun.three (v / 4096 + 0xE0)).low ≤ v / 64 % 64 + 0x80 ∧
      v / 64 % 64 + 0x80 ≤ (Begun.three (v / 4096 + 0xE0)).high := by
    simp only [Begun.three]
    constructor
    · split <;> omega
    · split <;> omega
  have hval : ((Begun.three (v / 4096 + 0xE0)).value * 64 + (v / 64 % 64 + 0x80 - 0x80)) * 64 +
      (v % 64 + 0x80 - 0x80) = v := by
    simp only [Begun.three]
    omega
  rw [← hm] at hsecond
  rw [decode, decodeFrom_begins hfirst, decodeFrom_goesOn rfl hsecond, hm,
    decodeFrom_tails_zero bs (by omega) (by omega), hval, decode]

/-- Four bytes of one character. -/
theorem decode_four_cons {v : Nat} (hlow : 0x10000 ≤ v) (hhigh : v < 0x110000)
    (bs : List UInt8) :
    decode (UInt8.ofNat (v / 262144 % 8 + 0xF0) :: UInt8.ofNat (v / 4096 % 64 + 0x80) ::
      UInt8.ofNat (v / 64 % 64 + 0x80) :: UInt8.ofNat (v % 64 + 0x80) :: bs) =
      Char.ofNat v :: decode bs := by
  have hn : (UInt8.ofNat (v / 262144 % 8 + 0xF0)).toNat = v / 262144 + 0xF0 := by
    rw [UInt8.toNat_ofNat']
    omega
  have hfirst : first (UInt8.ofNat (v / 262144 % 8 + 0xF0)) =
      ([], some (.four (v / 262144 + 0xF0))) := by
    rw [first, hn]
    rw [if_neg (by omega), if_neg (by omega), if_neg (by omega), if_neg (by omega),
      if_pos (by omega)]
  have hm : (UInt8.ofNat (v / 4096 % 64 + 0x80)).toNat = v / 4096 % 64 + 0x80 := by
    rw [UInt8.toNat_ofNat']
    omega
  have hsecond : (Begun.four (v / 262144 + 0xF0)).low ≤ v / 4096 % 64 + 0x80 ∧
      v / 4096 % 64 + 0x80 ≤ (Begun.four (v / 262144 + 0xF0)).high := by
    simp only [Begun.four]
    constructor
    · split <;> omega
    · split <;> omega
  have hval : (((Begun.four (v / 262144 + 0xF0)).value * 64 +
      (v / 4096 % 64 + 0x80 - 0x80)) * 64 + (v / 64 % 64 + 0x80 - 0x80)) * 64 +
      (v % 64 + 0x80 - 0x80) = v := by
    simp only [Begun.four]
    omega
  rw [← hm] at hsecond
  rw [decode, decodeFrom_begins hfirst, decodeFrom_goesOn rfl hsecond, hm,
    decodeFrom_tails_succ _ (by omega) (by omega), decodeFrom_tails_zero bs (by omega) (by omega),
    hval, decode]

/-- Two bytes of one character. -/
theorem decode_two_cons {v : Nat} (hlow : 0x80 ≤ v) (hhigh : v ≤ 0x7FF) (bs : List UInt8) :
    decode (UInt8.ofNat (v / 64 % 32 + 0xC0) :: UInt8.ofNat (v % 64 + 0x80) :: bs) =
      Char.ofNat v :: decode bs := by
  have hn : (UInt8.ofNat (v / 64 % 32 + 0xC0)).toNat = v / 64 + 0xC0 := by
    rw [UInt8.toNat_ofNat']
    omega
  have hfirst : first (UInt8.ofNat (v / 64 % 32 + 0xC0)) = ([], some (.tails 0 (v / 64))) := by
    rw [first, hn]
    rw [if_neg (by omega), if_neg (by omega), if_pos (by omega), Nat.add_sub_cancel]
  have hval : v / 64 * 64 + (v % 64 + 0x80 - 0x80) = v := by omega
  rw [decode, decodeFrom_begins hfirst, decodeFrom_tails_zero bs (by omega) (by omega), hval,
    decode]

/-- **A character that was written is read back.** -/
theorem decode_encodeChar_append (c : Char) (bs : List UInt8) :
    decode (String.utf8EncodeChar c ++ bs) = c :: decode bs := by
  have hc : Char.ofNat c.val.toNat = c := Char.ofNat_toNat c
  have hvalid : c.val.toNat < 0xD800 ∨ 0xDFFF < c.val.toNat ∧ c.val.toNat < 0x110000 := c.valid
  unfold String.utf8EncodeChar
  simp only
  split
  · rw [List.cons_append, List.nil_append, decode_ascii_cons (by omega), hc]
  split
  · simp only [List.cons_append, List.nil_append]
    rw [decode_two_cons (by omega) (by omega), hc]
  split
  · simp only [List.cons_append, List.nil_append]
    rw [decode_three_cons (by omega) (by omega) (by omega), hc]
  · simp only [List.cons_append, List.nil_append]
    rw [decode_four_cons (by omega) (by omega), hc]

/-- **A text that was written is read back**, whatever follows it. -/
theorem decode_encode_append (text : List Char) (bs : List UInt8) :
    decode (encode text ++ bs) = text ++ decode bs := by
  unfold encode
  induction text with
  | nil => rfl
  | cons c text ih =>
      rw [List.flatMap_cons, List.append_assoc, decode_encodeChar_append, ih, List.cons_append]

theorem decode_encode (text : List Char) : decode (encode text) = text := by
  have h := decode_encode_append text []
  rw [List.append_nil] at h
  rw [h]
  exact List.append_nil text

theorem encode_append (s t : List Char) : encode (s ++ t) = encode s ++ encode t :=
  List.flatMap_append

end Utf8
end VariantOne
