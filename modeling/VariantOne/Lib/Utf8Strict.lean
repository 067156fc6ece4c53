import VariantOne.Lib.Utf8

/-!
# Reading UTF-8 strictly

A strict reader stops at the first byte that does not go on with the character that is begun.  When
there is no such byte it has read characters, and at the end perhaps a character that is not complete:
`dangling` counts the bytes of that one.

`dangling_eq_some_iff`: bytes are read so exactly when they are written characters followed by the
beginning of one.
-/

namespace VariantOne
namespace Utf8

/-- The bytes of an incomplete character at the end, when all bytes before are read; `held` are those of the
character that is begun. -/
def danglingFrom : Option Begun → Nat → List UInt8 → Option Nat
  | _, held, [] => some held
  | none, _, b :: bs =>
      if b.toNat < 0x80 then danglingFrom none 0 bs
      else
        match (first b).2 with
        | some p => danglingFrom (some p) 1 bs
        | none => none
  | some p, held, b :: bs =>
      if p.low ≤ b.toNat ∧ b.toNat ≤ p.high then
        match p.more with
        | 0 => danglingFrom none 0 bs
        | more + 1 => danglingFrom (some (.tails more (p.value * 64 + (b.toNat - 0x80)))) (held + 1) bs
      else none

def dangling (data : List UInt8) : Option Nat := danglingFrom none 0 data

/-- Bytes that complete a character: the next one between two bounds, and `more` after it. -/
def Completes (low high : Nat) : Nat → List UInt8 → Prop
  | 0, bs => ∃ b, bs = [b] ∧ low ≤ b.toNat ∧ b.toNat ≤ high
  | more + 1, bs => ∃ b rest, bs = b :: rest ∧ (low ≤ b.toNat ∧ b.toNat ≤ high) ∧ Completes 0x80 0xBF more rest

/-- Bytes that begin a character and do not complete it. -/
def Incomplete (bs : List UInt8) : Prop :=
  bs ≠ [] ∧ ∃ c, bs <+: String.utf8EncodeChar c ∧ bs.length < (String.utf8EncodeChar c).length

/-! ## 1.  Characters as bytes -/

/-- The first byte of a character begins it. -/
inductive Starts : UInt8 → Begun → Prop
  | two {b : UInt8} : 0xC2 ≤ b.toNat → b.toNat < 0xE0 → Starts b (.tails 0 (b.toNat - 0xC0))
  | three {b : UInt8} : 0xE0 ≤ b.toNat → b.toNat < 0xF0 → Starts b (.three b.toNat)
  | four {b : UInt8} : 0xF0 ≤ b.toNat → b.toNat < 0xF5 → Starts b (.four b.toNat)

theorem first_eq_some_iff {b : UInt8} {p : Begun} : (first b).2 = some p ↔ Starts b p := by
  constructor
  · intro h
    unfold first at h
    dsimp only at h
    split at h
    · cases h
    split at h
    · cases h
    split at h
    · obtain rfl := Option.some.inj h
      exact .two (by omega) (by omega)
    split at h
    · obtain rfl := Option.some.inj h
      exact .three (by omega) (by omega)
    split at h
    · obtain rfl := Option.some.inj h
      exact .four (by omega) (by omega)
    · cases h
  · intro h
    unfold first
    dsimp only
    cases h with
    | two hlow hhigh => rw [if_neg (by omega), if_neg (by omega), if_pos hhigh]
    | three hlow hhigh => rw [if_neg (by omega), if_neg (by omega), if_neg (by omega), if_pos hhigh]
    | four hlow hhigh =>
        rw [if_neg (by omega), if_neg (by omega), if_neg (by omega), if_neg (by omega), if_pos hhigh]

theorem Starts.not_ascii {b : UInt8} {p : Begun} (h : Starts b p) : ¬ b.toNat < 0x80 := by
  cases h <;> omega

/-- A valid number as a character. -/
theorem val_ofNat {v : Nat} (h : v < 0xD800 ∨ 0xDFFF < v ∧ v < 0x110000) : (Char.ofNat v).val.toNat = v := by
  have hvalid : v.isValidChar := h
  rw [Char.ofNat, dif_pos hvalid]
  rfl

/-- The bytes of a character. -/
theorem encodeChar_cases (c : Char) :
    (∃ b, String.utf8EncodeChar c = [b] ∧ b.toNat < 0x80) ∨
      ∃ b p e, String.utf8EncodeChar c = b :: e ∧ Starts b p ∧ Completes p.low p.high p.more e := by
  have hvalid : c.val.toNat < 0xD800 ∨ 0xDFFF < c.val.toNat ∧ c.val.toNat < 0x110000 := c.valid
  have hbyte : ∀ {n : Nat}, n < 256 → (UInt8.ofNat n).toNat = n := fun {n} hn => by
    rw [UInt8.toNat_ofNat']
    omega
  unfold String.utf8EncodeChar
  simp only
  generalize c.val.toNat = v at hvalid ⊢
  split
  · exact .inl ⟨_, rfl, by rw [hbyte (by omega)]; omega⟩
  split
  · refine .inr ⟨_, _, _, rfl, .two ?_ ?_, _, rfl, ?_, ?_⟩
    · rw [hbyte (by omega)]
      omega
    · rw [hbyte (by omega)]
      omega
    · simp only [Begun.tails]
      rw [hbyte (by omega)]
      omega
    · simp only [Begun.tails]
      rw [hbyte (by omega)]
      omega
  split
  · refine .inr ⟨_, _, _, rfl, .three ?_ ?_, _, _, rfl, ⟨?_, ?_⟩, _, rfl, ?_, ?_⟩
    · rw [hbyte (by omega)]
      omega
    · rw [hbyte (by omega)]
      omega
    · rw [hbyte (by omega), hbyte (by omega)]
      simp only [Begun.three]
      split <;> omega
    · rw [hbyte (by omega), hbyte (by omega)]
      simp only [Begun.three]
      split <;> omega
    · rw [hbyte (by omega)]
      omega
    · rw [hbyte (by omega)]
      omega
  · refine .inr ⟨_, _, _, rfl, .four ?_ ?_, _, _, rfl, ⟨?_, ?_⟩, _, _, rfl, ⟨?_, ?_⟩, _, rfl, ?_, ?_⟩
    · rw [hbyte (by omega)]
      omega
    · rw [hbyte (by omega)]
      omega
    · rw [hbyte (by omega), hbyte (by omega)]
      simp only [Begun.four]
      split <;> omega
    · rw [hbyte (by omega), hbyte (by omega)]
      simp only [Begun.four]
      split <;> omega
    · rw [hbyte (by omega)]
      omega
    · rw [hbyte (by omega)]
      omega
    · rw [hbyte (by omega)]
      omega
    · rw [hbyte (by omega)]
      omega

theorem ofNat_eq {b : UInt8} {n : Nat} (h : n = b.toNat) : UInt8.ofNat n = b := by
  rw [h, UInt8.ofNat_toNat]

/-- **Bytes that begin and complete a character are that character's.** -/
theorem Starts.encodeChar {b : UInt8} {p : Begun} (h : Starts b p) {e : List UInt8}
    (he : Completes p.low p.high p.more e) : ∃ c, String.utf8EncodeChar c = b :: e := by
  cases h with
  | two hlow hhigh =>
      obtain ⟨b₁, rfl, hlow₁, hhigh₁⟩ := he
      simp only [Begun.tails] at hlow₁ hhigh₁
      have hval := val_ofNat (v := (b.toNat - 0xC0) * 64 + (b₁.toNat - 0x80)) (by omega)
      refine ⟨Char.ofNat ((b.toNat - 0xC0) * 64 + (b₁.toNat - 0x80)), ?_⟩
      unfold String.utf8EncodeChar
      simp only [hval]
      rw [if_neg (by omega), if_pos (by omega), ofNat_eq (b := b) (by omega), ofNat_eq (b := b₁) (by omega)]
  | three hlow hhigh =>
      obtain ⟨b₁, _, rfl, ⟨hlow₁, hhigh₁⟩, b₂, rfl, hlow₂, hhigh₂⟩ := he
      have hbounds : 0x80 ≤ b₁.toNat ∧ b₁.toNat ≤ 0xBF ∧ (b.toNat = 0xE0 → 0xA0 ≤ b₁.toNat) ∧
          (b.toNat = 0xED → b₁.toNat ≤ 0x9F) := by
        simp only [Begun.three] at hlow₁ hhigh₁
        split at hlow₁ <;> split at hhigh₁ <;> omega
      have hval := val_ofNat
        (v := ((b.toNat - 0xE0) * 64 + (b₁.toNat - 0x80)) * 64 + (b₂.toNat - 0x80)) (by omega)
      refine ⟨Char.ofNat (((b.toNat - 0xE0) * 64 + (b₁.toNat - 0x80)) * 64 + (b₂.toNat - 0x80)), ?_⟩
      unfold String.utf8EncodeChar
      simp only [hval]
      rw [if_neg (by omega), if_neg (by omega), if_pos (by omega), ofNat_eq (b := b) (by omega),
        ofNat_eq (b := b₁) (by omega), ofNat_eq (b := b₂) (by omega)]
  | four hlow hhigh =>
      obtain ⟨b₁, _, rfl, ⟨hlow₁, hhigh₁⟩, b₂, _, rfl, ⟨hlow₂, hhigh₂⟩, b₃, rfl, hlow₃, hhigh₃⟩ := he
      have hbounds : 0x80 ≤ b₁.toNat ∧ b₁.toNat ≤ 0xBF ∧ (b.toNat = 0xF0 → 0x90 ≤ b₁.toNat) ∧
          (b.toNat = 0xF4 → b₁.toNat ≤ 0x8F) := by
        simp only [Begun.four] at hlow₁ hhigh₁
        split at hlow₁ <;> split at hhigh₁ <;> omega
      have hval := val_ofNat (v := (((b.toNat - 0xF0) * 64 + (b₁.toNat - 0x80)) * 64 +
        (b₂.toNat - 0x80)) * 64 + (b₃.toNat - 0x80)) (by omega)
      refine ⟨Char.ofNat ((((b.toNat - 0xF0) * 64 + (b₁.toNat - 0x80)) * 64 + (b₂.toNat - 0x80)) * 64 +
        (b₃.toNat - 0x80)), ?_⟩
      unfold String.utf8EncodeChar
      simp only [hval]
      rw [if_neg (by omega), if_neg (by omega), if_neg (by omega), ofNat_eq (b := b) (by omega),
        ofNat_eq (b := b₁) (by omega), ofNat_eq (b := b₂) (by omega), ofNat_eq (b := b₃) (by omega)]

/-- A character that is begun can be completed. -/
theorem exists_completes {low high : Nat} (hbounds : low ≤ high) (hhigh : high < 256) (more : Nat) :
    ∃ e, e ≠ [] ∧ Completes low high more e := by
  have hbyte : (UInt8.ofNat low).toNat = low := by
    rw [UInt8.toNat_ofNat']
    omega
  induction more generalizing low high with
  | zero => exact ⟨[UInt8.ofNat low], by simp, _, rfl, by rw [hbyte], by rw [hbyte]; exact hbounds⟩
  | succ more ih =>
      obtain ⟨e, -, he⟩ := @ih 0x80 0xBF (by omega) (by omega) rfl
      exact ⟨UInt8.ofNat low :: e, by simp, _, e, rfl,
        ⟨by rw [hbyte], by rw [hbyte]; exact hbounds⟩, he⟩

theorem Starts.bounds {b : UInt8} {p : Begun} (h : Starts b p) : p.low ≤ p.high ∧ p.high < 256 := by
  cases h with
  | two => simp [Begun.tails]
  | three =>
      simp only [Begun.three]
      split <;> split <;> omega
  | four =>
      simp only [Begun.four]
      split <;> split <;> omega

/-! ## 2.  What a strict reader reads -/

theorem danglingFrom_ascii {b : UInt8} (h : b.toNat < 0x80) (bs : List UInt8) :
    dangling (b :: bs) = dangling bs := by
  rw [dangling, danglingFrom, if_pos h]
  rfl

theorem dangling_starts {b : UInt8} {p : Begun} (h : Starts b p) (bs : List UInt8) :
    dangling (b :: bs) = danglingFrom (some p) 1 bs := by
  rw [dangling, danglingFrom, if_neg h.not_ascii, first_eq_some_iff.mpr h]

theorem danglingFrom_within {p : Begun} {b : UInt8} (hb : p.low ≤ b.toNat ∧ b.toNat ≤ p.high) (held : Nat)
    (bs : List UInt8) :
    danglingFrom (some p) held (b :: bs) =
      match p.more with
      | 0 => dangling bs
      | more + 1 =>
          danglingFrom (some (.tails more (p.value * 64 + (b.toNat - 0x80)))) (held + 1) bs := by
  rw [danglingFrom, if_pos hb]
  rfl

/-- Bytes that complete the character are read, and so is what follows. -/
theorem danglingFrom_completes {p : Begun} {e : List UInt8} (he : Completes p.low p.high p.more e) (held : Nat)
    (bs : List UInt8) : danglingFrom (some p) held (e ++ bs) = dangling bs := by
  generalize hmore : p.more = more at he
  induction more generalizing p e held with
  | zero =>
      obtain ⟨b, rfl, hb⟩ := he
      rw [List.singleton_append, danglingFrom_within hb, hmore]
  | succ more ih =>
      obtain ⟨b, rest, rfl, hb, hrest⟩ := he
      rw [List.cons_append, danglingFrom_within hb, hmore]
      exact ih (p := .tails more _) (held + 1) rfl hrest

/-- Bytes that do not complete it dangle. -/
theorem danglingFrom_prefix {p : Begun} {e d : List UInt8} (he : Completes p.low p.high p.more e)
    (hd : d <+: e) (hlen : d.length < e.length) (held : Nat) :
    danglingFrom (some p) held d = some (held + d.length) := by
  generalize hmore : p.more = more at he
  induction more generalizing p e d held with
  | zero =>
      obtain ⟨b, rfl, -⟩ := he
      rw [List.length_singleton, Nat.lt_one_iff, List.length_eq_zero_iff] at hlen
      rw [hlen, danglingFrom]
      rfl
  | succ more ih =>
      obtain ⟨b, rest, rfl, hb, hrest⟩ := he
      cases d with
      | nil => rfl
      | cons b' d =>
          obtain ⟨rfl, htail⟩ := List.cons_prefix_cons.mp hd
          rw [danglingFrom_within hb, hmore]
          dsimp only
          rw [ih (p := .tails more _) htail (Nat.lt_of_succ_lt_succ hlen) (held + 1) rfl hrest, List.length_cons]
          congr 1
          omega

/-- Bytes a strict reader reads after the beginning of a character complete it, or begin to. -/
theorem danglingFrom_some {p : Begun} (hp : p.low ≤ p.high ∧ p.high < 256) {held k : Nat} {bs : List UInt8}
    (h : danglingFrom (some p) held bs = some k) :
    (∃ e, Completes p.low p.high p.more e ∧ bs <+: e ∧ bs.length < e.length ∧ k = held + bs.length) ∨
      ∃ e rest, Completes p.low p.high p.more e ∧ bs = e ++ rest ∧ dangling rest = some k := by
  induction bs generalizing p held with
  | nil =>
      obtain ⟨e, hne, he⟩ := exists_completes hp.1 hp.2 p.more
      exact .inl ⟨e, he, List.nil_prefix, List.length_pos_of_ne_nil hne, (Option.some.inj h).symm⟩
  | cons b bs ih =>
      rw [danglingFrom] at h
      split at h
      · rename_i hb
        split at h
        · rename_i hmore
          exact .inr ⟨[b], bs, by rw [hmore]; exact ⟨b, rfl, hb⟩, rfl, h⟩
        · rename_i more hmore
          rw [hmore]
          rcases ih (p := .tails more _) ⟨by simp [Begun.tails], by simp [Begun.tails]⟩ h with
            ⟨e, he, hprefix, hlen, rfl⟩ | ⟨e, rest, he, rfl, hrest⟩
          · refine .inl ⟨b :: e, ⟨b, e, rfl, hb, he⟩, List.cons_prefix_cons.mpr ⟨rfl, hprefix⟩,
              Nat.succ_lt_succ hlen, ?_⟩
            rw [List.length_cons]
            omega
          · exact .inr ⟨b :: e, rest, ⟨b, e, rfl, hb, he⟩, rfl, hrest⟩
      · cases h

/-- A written character is read. -/
theorem dangling_encodeChar_append (c : Char) (bs : List UInt8) :
    dangling (String.utf8EncodeChar c ++ bs) = dangling bs := by
  rcases encodeChar_cases c with ⟨b, hbytes, hb⟩ | ⟨b, p, e, hbytes, hstart, he⟩
  · rw [hbytes, List.singleton_append, danglingFrom_ascii hb]
  · rw [hbytes, List.cons_append, dangling_starts hstart, danglingFrom_completes he]

theorem dangling_encode_append (text : List Char) (bs : List UInt8) :
    dangling (encode text ++ bs) = dangling bs := by
  induction text with
  | nil => rfl
  | cons c text ih =>
      rw [encode, List.flatMap_cons, List.append_assoc, dangling_encodeChar_append]
      exact ih

theorem Incomplete.dangling {bs : List UInt8} (h : Incomplete bs) : dangling bs = some bs.length := by
  obtain ⟨hne, c, hprefix, hlen⟩ := h
  obtain ⟨b', bs, rfl⟩ := List.exists_cons_of_ne_nil hne
  rcases encodeChar_cases c with ⟨b, hbytes, -⟩ | ⟨b, p, e, hbytes, hstart, he⟩
  · rw [hbytes, List.length_cons, List.length_singleton] at hlen
    omega
  · rw [hbytes] at hprefix hlen
    obtain ⟨rfl, htail⟩ := List.cons_prefix_cons.mp hprefix
    rw [dangling_starts hstart, danglingFrom_prefix he htail (Nat.lt_of_succ_lt_succ hlen),
      List.length_cons, Nat.add_comm]

/-- **What a strict reader reads**: written characters, and perhaps the beginning of one. -/
theorem dangling_eq_some_iff {bs : List UInt8} {k : Nat} :
    dangling bs = some k ↔
      ∃ text rest, bs = encode text ++ rest ∧ rest.length = k ∧ (rest = [] ∨ Incomplete rest) := by
  constructor
  · intro h
    induction hn : bs.length using Nat.strong_induction_on generalizing bs with
    | _ n ih =>
        cases bs with
        | nil => exact ⟨[], [], rfl, Option.some.inj h, .inl rfl⟩
        | cons b bs =>
            -- The rest after one character of `encode` is read in the same way.
            have hgo : ∀ c rest, b :: bs = String.utf8EncodeChar c ++ rest → dangling rest = some k →
                ∃ text rest, b :: bs = encode text ++ rest ∧ rest.length = k ∧ (rest = [] ∨ Incomplete rest) := by
              intro c rest hsplit hrest
              have hshort := congrArg List.length hsplit
              rw [List.length_append] at hshort
              have hpos := List.length_pos_of_ne_nil (String.utf8EncodeChar_ne_nil (c := c))
              obtain ⟨text, rest', rfl, hlen, hend⟩ := ih rest.length (by omega) hrest rfl
              refine ⟨c :: text, rest', ?_, hlen, hend⟩
              rw [hsplit, encode, encode, List.flatMap_cons, List.append_assoc]
            by_cases hascii : b.toNat < 0x80
            · rw [danglingFrom_ascii hascii] at h
              have hbytes : String.utf8EncodeChar (Char.ofNat b.toNat) = [b] := by
                have hval := val_ofNat (v := b.toNat) (by omega)
                unfold String.utf8EncodeChar
                simp only [hval]
                rw [if_pos (by omega), ofNat_eq rfl]
              exact hgo _ bs (by rw [hbytes]; rfl) h
            · cases hfirst : (first b).2 with
              | none =>
                  rw [dangling, danglingFrom, if_neg hascii, hfirst] at h
                  cases h
              | some p =>
                  have hstart := first_eq_some_iff.mp hfirst
                  rw [dangling_starts hstart] at h
                  rcases danglingFrom_some hstart.bounds h with
                    ⟨e, he, hprefix, hlen, rfl⟩ | ⟨e, rest, he, rfl, hrest⟩
                  · obtain ⟨c, hc⟩ := hstart.encodeChar he
                    refine ⟨[], b :: bs, rfl, ?_, .inr ⟨by simp, c, ?_, ?_⟩⟩
                    · rw [List.length_cons, Nat.add_comm]
                    · rw [hc]
                      exact List.cons_prefix_cons.mpr ⟨rfl, hprefix⟩
                    · rw [hc]
                      exact Nat.succ_lt_succ hlen
                  · obtain ⟨c, hc⟩ := hstart.encodeChar he
                    exact hgo c rest (by rw [hc]; rfl) hrest
  · rintro ⟨text, rest, rfl, rfl, hend⟩
    rw [dangling_encode_append]
    rcases hend with rfl | hend
    · rfl
    · exact hend.dangling

/-- A character has at most four bytes, so three of them at most can dangle. -/
theorem Incomplete.length_le {bs : List UInt8} (h : Incomplete bs) : bs.length ≤ 3 := by
  obtain ⟨-, c, -, hlen⟩ := h
  have hfour : (String.utf8EncodeChar c).length ≤ 4 := by
    rw [String.length_utf8EncodeChar]
    exact c.utf8Size_le_four
  omega

/-- **Bytes of a text that are cut** are the bytes of its first characters, and the beginning of the next
one. -/
theorem take_encode (text : List Char) (n : Nat) :
    ∃ kept rest, kept <+: text ∧ (encode text).take n = encode kept ++ rest ∧ (rest = [] ∨ Incomplete rest) ∧
      ∀ longer, longer <+: text → kept.length < longer.length → n < (encode longer).length := by
  induction text generalizing n with
  | nil =>
      refine ⟨[], [], List.prefix_rfl, List.take_nil, .inl rfl, fun longer hprefix hlong => ?_⟩
      rw [List.prefix_nil.mp hprefix] at hlong
      exact absurd hlong (Nat.lt_irrefl _)
  | cons c text ih =>
      have hcons : ∀ t, encode (c :: t) = String.utf8EncodeChar c ++ encode t := fun t => List.flatMap_cons
      by_cases hfits : (String.utf8EncodeChar c).length ≤ n
      · obtain ⟨kept, rest, hprefix, htake, hend, hmax⟩ := ih (n - (String.utf8EncodeChar c).length)
        refine ⟨c :: kept, rest, List.cons_prefix_cons.mpr ⟨rfl, hprefix⟩, ?_, hend, fun longer hlonger hlong => ?_⟩
        · rw [hcons, hcons, List.take_append, List.take_of_length_le hfits, htake, List.append_assoc]
        · cases longer with
          | nil => exact absurd hlong (Nat.not_lt_zero _)
          | cons c' longer =>
              obtain ⟨rfl, htail⟩ := List.cons_prefix_cons.mp hlonger
              have hmore := hmax longer htail (Nat.lt_of_succ_lt_succ hlong)
              rw [hcons, List.length_append]
              omega
      · have htake : (encode (c :: text)).take n = (String.utf8EncodeChar c).take n := by
          rw [hcons, List.take_append_of_le_length (Nat.le_of_not_le hfits)]
        refine ⟨[], (encode (c :: text)).take n, List.nil_prefix, rfl, ?_, fun longer hlonger hlong => ?_⟩
        · by_cases hzero : n = 0
          · exact .inl (by rw [hzero, List.take_zero])
          · refine .inr ⟨?_, c, ?_, ?_⟩
            · rw [htake, ne_eq, List.take_eq_nil_iff]
              exact fun hor => hor.elim hzero String.utf8EncodeChar_ne_nil
            · rw [htake]
              exact List.take_prefix _ _
            · rw [htake, List.length_take]
              omega
        · cases longer with
          | nil => exact absurd hlong (Nat.lt_irrefl _)
          | cons c' longer =>
              obtain ⟨rfl, -⟩ := List.cons_prefix_cons.mp hlonger
              rw [hcons, List.length_append]
              omega

end Utf8
end VariantOne
