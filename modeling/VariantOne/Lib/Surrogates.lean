import VariantOne.Lib.CodePoints
import VariantOne.Lib.Utf8Strict

/-!
# Reading any bytes as text

Bytes are read as UTF-8, and a byte that is not part of a character becomes the surrogate `0xDC00` and the
byte (`decode`).  Writing such a text gives the bytes back (`encode_decode`), so different bytes are different
texts.

An ASCII byte is never inside a character: `decode_append_ascii` reads what stands on its two sides apart, and
`decode_map_ascii` replaces one ASCII character by another before or after the reading.
-/

namespace VariantOne
namespace Surrogates

/-! ## 1.  Reading and writing -/

/-- The character that bytes start with. -/
def front? (bs : List UInt8) : Option Char :=
  [1, 2, 3, 4].findSome? fun n =>
    match Utf8.decode (bs.take n) with
    | [c] => if String.utf8EncodeChar c = bs.take n then some c else none
    | _ => none

theorem lt_codePoints (b : UInt8) : 0xDC00 + b.toNat < 0x110000 := by
  have hb := b.toNat_lt
  omega

/-- The surrogate of a byte. -/
def escape (b : UInt8) : CodePoint := ⟨0xDC00 + b.toNat, lt_codePoints b⟩

/-- The code point of a byte that is a character. -/
def point (b : UInt8) : CodePoint := ⟨b.toNat, Nat.lt_of_le_of_lt (Nat.le_add_left _ _) (lt_codePoints b)⟩

/-- Read bytes after some that belong to the character before. -/
def decodeFrom : Nat → List UInt8 → CodeText
  | _, [] => []
  | skip + 1, _ :: bs => decodeFrom skip bs
  | 0, b :: bs =>
      match front? (b :: bs) with
      | some c => CodePoint.ofChar c :: decodeFrom ((String.utf8EncodeChar c).length - 1) bs
      | none => escape b :: decodeFrom 0 bs

/-- `data.decode("utf-8", errors="surrogateescape")` -/
def decode (data : List UInt8) : CodeText := decodeFrom 0 data

/-- The bytes of a code point; a surrogate that is no byte's has none. -/
def encodePoint (p : CodePoint) : Option (List UInt8) :=
  match p.char? with
  | some c => some (String.utf8EncodeChar c)
  | none =>
      if 0xDC80 ≤ p.val ∧ p.val ≤ 0xDCFF then some [UInt8.ofNat (p.val - 0xDC00)] else none

/-- `s.encode("utf-8", errors="surrogateescape")` -/
def encode (s : CodeText) : Option (List UInt8) := (s.mapM encodePoint).map List.flatten

theorem encodeChar_inj {c c' : Char} {bs : List UInt8} (h : String.utf8EncodeChar c <+: bs)
    (h' : String.utf8EncodeChar c' <+: bs) : c' = c := by
  obtain ⟨r, rfl⟩ := h
  obtain ⟨r', hr⟩ := h'
  have hread : Utf8.decode (String.utf8EncodeChar c' ++ r') = Utf8.decode (String.utf8EncodeChar c ++ r) := by
    rw [hr]
  rw [Utf8.decode_encodeChar_append, Utf8.decode_encodeChar_append] at hread
  exact (List.cons.inj hread).1

theorem encodeChar_length (c : Char) : (String.utf8EncodeChar c).length ∈ [1, 2, 3, 4] := by
  have hpos := String.length_utf8EncodeChar c
  have hle := c.utf8Size_le_four
  have hlow := c.utf8Size_pos
  simp only [List.mem_cons, List.not_mem_nil, or_false]
  omega

/-- **The front of bytes** is the character whose bytes they start with. -/
theorem front?_eq_some_iff {bs : List UInt8} {c : Char} :
    front? bs = some c ↔ String.utf8EncodeChar c <+: bs := by
  have hfound : ∀ {c'}, front? bs = some c' → String.utf8EncodeChar c' <+: bs := fun {c'} h => by
    obtain ⟨n, -, hn⟩ := List.exists_of_findSome?_eq_some h
    split at hn
    · split at hn
      · rename_i heq
        obtain rfl := Option.some.inj hn
        exact heq ▸ List.take_prefix n bs
      · cases hn
    · cases hn
  refine ⟨hfound, fun h => ?_⟩
  cases hfront : front? bs with
  | some c' => rw [encodeChar_inj h (hfound hfront)]
  | none =>
      have hread := List.findSome?_eq_none_iff.mp hfront _ (encodeChar_length c)
      rw [← List.prefix_iff_eq_take.mp h] at hread
      have hone : Utf8.decode (String.utf8EncodeChar c) = [c] := by
        have happend := Utf8.decode_encodeChar_append c []
        rw [List.append_nil] at happend
        exact happend
      rw [hone] at hread
      simp at hread

theorem encode_cons (p : CodePoint) (s : CodeText) :
    encode (p :: s) = (encodePoint p).bind fun e => (encode s).map (e ++ ·) := by
  unfold encode
  rw [List.mapM_cons]
  cases encodePoint p with
  | none => rfl
  | some e =>
      cases s.mapM encodePoint with
      | none => rfl
      | some es => rfl

theorem char?_ofChar (c : Char) : (CodePoint.ofChar c).char? = some c := by
  unfold CodePoint.char? CodePoint.ofChar
  have hvalid : (c.toNat).isValidChar := c.valid
  rw [dif_pos hvalid]
  congr 1

theorem encodePoint_ofChar (c : Char) :
    encodePoint (CodePoint.ofChar c) = some (String.utf8EncodeChar c) := by
  unfold encodePoint
  rw [char?_ofChar]

theorem encodePoint_escape {b : UInt8} (hb : ¬ b.toNat < 0x80) : encodePoint (escape b) = some [b] := by
  have hlt := b.toNat_lt
  have hchar : (escape b).char? = none := by
    unfold CodePoint.char? escape
    refine dif_neg fun hvalid => ?_
    rcases hvalid with h | h
    · dsimp only at h
      omega
    · dsimp only at h
      omega
  have hval : (escape b).val = 0xDC00 + b.toNat := rfl
  unfold encodePoint
  rw [hchar]
  dsimp only
  rw [hval, if_pos ⟨by omega, by omega⟩, Nat.add_sub_cancel_left, UInt8.ofNat_toNat]

/-- An ASCII byte is a character. -/
theorem encodeChar_ascii {b : UInt8} (hb : b.toNat < 0x80) :
    ∃ c, String.utf8EncodeChar c = [b] ∧ CodePoint.ofChar c = point b := by
  have hval := Utf8.val_ofNat (v := b.toNat) (.inl (by omega))
  refine ⟨Char.ofNat b.toNat, ?_, Fin.ext hval⟩
  unfold String.utf8EncodeChar
  simp only [hval]
  rw [if_pos (by omega), UInt8.ofNat_toNat]

theorem front?_ascii {b : UInt8} (hb : b.toNat < 0x80) (bs : List UInt8) :
    ∃ c, front? (b :: bs) = some c ∧ (String.utf8EncodeChar c).length = 1 ∧ CodePoint.ofChar c = point b := by
  obtain ⟨c, hbytes, hpoint⟩ := encodeChar_ascii hb
  refine ⟨c, front?_eq_some_iff.mpr ⟨bs, by rw [hbytes]; rfl⟩, by rw [hbytes]; rfl, hpoint⟩

theorem encode_decodeFrom (skip : Nat) (bs : List UInt8) :
    encode (decodeFrom skip bs) = some (bs.drop skip) := by
  induction bs generalizing skip with
  | nil =>
      rw [decodeFrom, List.drop_nil]
      rfl
  | cons b bs ih =>
      cases skip with
      | succ skip => exact ih skip
      | zero =>
          rw [decodeFrom, List.drop_zero]
          cases hfront : front? (b :: bs) with
          | some c =>
              obtain ⟨r, hr⟩ := front?_eq_some_iff.mp hfront
              cases hbytes : String.utf8EncodeChar c with
              | nil =>
                  have hlen := encodeChar_length c
                  rw [hbytes] at hlen
                  exact absurd hlen (by decide)
              | cons b' e =>
                  rw [hbytes, List.cons_append] at hr
                  obtain ⟨rfl, rfl⟩ := List.cons.inj hr
                  dsimp only
                  rw [encode_cons, encodePoint_ofChar, Option.bind_some, ih, hbytes]
                  simp
          | none =>
              have hb : ¬ b.toNat < 0x80 := fun hb => by
                obtain ⟨c, hc, -⟩ := front?_ascii hb bs
                rw [hc] at hfront
                cases hfront
              dsimp only
              rw [encode_cons, encodePoint_escape hb, Option.bind_some, ih]
              rfl

/-- **Writing what was read gives the bytes back.** -/
theorem encode_decode (bs : List UInt8) : encode (decode bs) = some bs := encode_decodeFrom 0 bs

/-- **Different bytes are different texts.** -/
theorem decode_injective : Function.Injective decode := fun bs bs' h =>
  Option.some.inj (by rw [← encode_decode bs, ← encode_decode bs', h])

theorem decode_eq_nil_iff {bs : List UInt8} : decode bs = [] ↔ bs = [] :=
  ⟨fun h => decode_injective h, fun h => by rw [h]; rfl⟩

/-! ## 2.  ASCII -/

theorem not_mem_encodeChar {b : UInt8} (hb : b.toNat < 0x80) {c : Char} (hc : String.utf8EncodeChar c ≠ [b]) :
    b ∉ String.utf8EncodeChar c := by
  have hcompletes : ∀ {low high more : Nat} {e : List UInt8}, 0x80 ≤ low → Utf8.Completes low high more e →
      b ∉ e := by
    intro low high more
    induction more generalizing low high with
    | zero =>
        rintro e hlow ⟨b', rfl, hb', -⟩ hmem
        rw [List.mem_singleton.mp hmem] at hb
        omega
    | succ more ih =>
        rintro e hlow ⟨b', rest, rfl, ⟨hb', -⟩, hrest⟩ hmem
        rcases List.mem_cons.mp hmem with rfl | hmem
        · omega
        · exact ih (Nat.le_refl _) hrest hmem
  rcases Utf8.encodeChar_cases c with ⟨b', hbytes, -⟩ | ⟨b', p, e, hbytes, hstart, he⟩
  · rw [hbytes] at hc ⊢
    exact fun hmem => hc (by rw [List.mem_singleton.mp hmem])
  · rw [hbytes]
    intro hmem
    rcases List.mem_cons.mp hmem with rfl | hmem
    · exact hstart.not_ascii hb
    · exact hcompletes p.tail he hmem

/-- What follows an ASCII byte does not matter to the character before it. -/
theorem front?_append_ascii {b : UInt8} (hb : b.toNat < 0x80) (x : UInt8) (bs rest : List UInt8) :
    front? (x :: bs ++ b :: rest) = front? (x :: bs) := by
  have hiff : ∀ c, String.utf8EncodeChar c <+: x :: bs ++ b :: rest ↔
      String.utf8EncodeChar c <+: x :: bs := by
    intro c
    refine ⟨fun h => ?_, fun h => h.trans (List.prefix_append _ _)⟩
    rcases Nat.lt_or_ge (x :: bs).length (String.utf8EncodeChar c).length with hlen | hlen
    · -- A longer character would contain the byte.
      have hinside : x :: bs ++ [b] <+: String.utf8EncodeChar c := by
        refine List.prefix_of_prefix_length_le ⟨rest, by simp⟩ h ?_
        rw [List.length_append]
        exact hlen
      have hone : String.utf8EncodeChar c ≠ [b] := fun heq => by
        rw [heq, List.length_singleton, List.length_cons] at hlen
        omega
      exact absurd (hinside.subset (by simp)) (not_mem_encodeChar hb hone)
    · exact List.prefix_of_prefix_length_le h (List.prefix_append _ _) hlen
  cases h : front? (x :: bs) with
  | some c => exact front?_eq_some_iff.mpr ((hiff c).mpr (front?_eq_some_iff.mp h))
  | none =>
      cases h' : front? (x :: bs ++ b :: rest) with
      | none => rfl
      | some c =>
          rw [front?_eq_some_iff.mpr ((hiff c).mp (front?_eq_some_iff.mp h'))] at h
          cases h

theorem decodeFrom_append_ascii {b : UInt8} (hb : b.toNat < 0x80) (bs rest : List UInt8) {skip : Nat}
    (hskip : skip ≤ bs.length) :
    decodeFrom skip (bs ++ b :: rest) = decodeFrom skip bs ++ point b :: decode rest := by
  induction bs generalizing skip with
  | nil =>
      obtain rfl : skip = 0 := Nat.le_zero.mp hskip
      obtain ⟨c, hc, hlen, hpoint⟩ := front?_ascii hb rest
      rw [List.nil_append, decodeFrom.eq_3, hc]
      dsimp only
      rw [hlen, hpoint]
      rfl
  | cons x bs ih =>
      cases skip with
      | succ skip => exact ih (Nat.le_of_succ_le_succ hskip)
      | zero =>
          have hfront := front?_append_ascii hb x bs rest
          rw [List.cons_append] at hfront ⊢
          rw [decodeFrom, decodeFrom, hfront]
          cases hc : front? (x :: bs) with
          | none =>
              dsimp only
              rw [ih (Nat.zero_le _), List.cons_append]
          | some c =>
              have hle := (front?_eq_some_iff.mp hc).length_le
              rw [List.length_cons] at hle
              dsimp only
              rw [ih (by omega), List.cons_append]

/-- **The two sides of an ASCII byte** are read apart. -/
theorem decode_append_ascii {b : UInt8} (hb : b.toNat < 0x80) (bs rest : List UInt8) :
    decode (bs ++ b :: rest) = decode bs ++ point b :: decode rest :=
  decodeFrom_append_ascii hb bs rest (Nat.zero_le _)

theorem decode_cons_ascii {b : UInt8} (hb : b.toNat < 0x80) (rest : List UInt8) :
    decode (b :: rest) = point b :: decode rest :=
  decode_append_ascii hb [] rest

theorem decode_ascii {bs : List UInt8} (h : ∀ b ∈ bs, b.toNat < 0x80) : decode bs = bs.map point := by
  induction bs with
  | nil => rfl
  | cons b bs ih =>
      rw [decode_cons_ascii (h b List.mem_cons_self), ih fun b' hb' => h b' (List.mem_cons_of_mem _ hb')]
      rfl

theorem point_injective : Function.Injective point := fun _ _ h => UInt8.toNat_inj.mp (Fin.mk.inj h)

theorem encode_mem {s : CodeText} {out : List UInt8} (h : encode s = some out) {p : CodePoint} (hp : p ∈ s)
    {e : List UInt8} (he : encodePoint p = some e) : e ⊆ out := by
  induction s generalizing out with
  | nil => cases hp
  | cons q s ih =>
      rw [encode_cons] at h
      obtain ⟨f, hf, h⟩ := Option.bind_eq_some_iff.mp h
      obtain ⟨rest, hrest, rfl⟩ := Option.map_eq_some_iff.mp h
      rcases List.mem_cons.mp hp with rfl | hp
      · obtain rfl := Option.some.inj (he.symm.trans hf)
        exact List.subset_append_left _ _
      · exact List.Subset.trans (ih hrest hp) (List.subset_append_right _ _)

/-- An ASCII character is read where its byte is. -/
theorem point_mem_decode_iff {b : UInt8} (hb : b.toNat < 0x80) {bs : List UInt8} :
    point b ∈ decode bs ↔ b ∈ bs := by
  constructor
  · intro h
    obtain ⟨c, hbytes, hpoint⟩ := encodeChar_ascii hb
    have he : encodePoint (point b) = some [b] := by rw [← hpoint, encodePoint_ofChar, hbytes]
    exact encode_mem (encode_decode bs) h he List.mem_cons_self
  · intro h
    obtain ⟨s, t, rfl⟩ := List.append_of_mem h
    rw [decode_append_ascii hb]
    exact List.mem_append_right _ List.mem_cons_self

/-- **Replacing an ASCII character by another** is the same before and after the reading. -/
theorem decode_map_ascii {a b : UInt8} (ha : a.toNat < 0x80) (hb : b.toNat < 0x80) (bs : List UInt8) :
    decode (bs.map fun x => if x = a then b else x) =
      (decode bs).map fun p => if p = point a then point b else p := by
  induction hn : bs.length using Nat.strong_induction_on generalizing bs with
  | _ n ih =>
      by_cases hmem : a ∈ bs
      · obtain ⟨s, t, rfl⟩ := List.append_of_mem hmem
        rw [List.length_append, List.length_cons] at hn
        rw [decode_append_ascii ha, List.map_append, List.map_cons, if_pos rfl, decode_append_ascii hb,
          ih s.length (by omega) s rfl, ih t.length (by omega) t rfl, List.map_append, List.map_cons,
          if_pos rfl]
      · have hpoint : point a ∉ decode bs := fun h => hmem ((point_mem_decode_iff ha).mp h)
        have hbytes : (bs.map fun x => if x = a then b else x) = bs := by
          refine (List.map_congr_left fun x hx => ?_).trans (List.map_id bs)
          exact if_neg fun heq => hmem (by rw [← heq]; exact hx)
        have hpoints : ((decode bs).map fun p => if p = point a then point b else p) = decode bs := by
          refine (List.map_congr_left fun p hp => ?_).trans (List.map_id _)
          exact if_neg fun heq => hpoint (by rw [← heq]; exact hp)
        rw [hbytes, hpoints]

end Surrogates
end VariantOne
