import VariantOne.Lib.Utf8Strict

/-!
# Bounded previews

A preview keeps the first characters of a text that fit into a number of bytes, with a marker after them.
`utf8_prefix` cuts the bytes: what is left of a character at the end is dropped, and bytes that are no
UTF-8 elsewhere are kept as they are.

`bounded_previews` is the result, for every text, marker and limit: what is shown fits the limit, a text that
fits is shown whole, and a text that does not is cut so that one more character would not have fitted beside
its marker.  A marker that is itself too long gives way to a short one.  The bytes that are cut inside a
character are what `dangling` counts.
-/

namespace VariantOne
namespace TextLimits

open Utf8

/-- `max(0, int(max_bytes))` -/
def cap (maxBytes : Int) : Nat := (max 0 maxBytes).toNat

/-- `utf8_prefix` -/
def utf8Prefix (raw : List UInt8) (maxBytes : Int) : List UInt8 :=
  let candidate := raw.take (cap maxBytes)
  match dangling candidate with
  | some k => candidate.take (candidate.length - k)
  | none => candidate

/-- What marks a text that is cut, where the marker fits and where it does not. -/
def label (marker : List Char) (cap : Nat) : List UInt8 :=
  let label := encode marker
  if cap < label.length then
    encode (if 3 ≤ cap then ['…'] else if 2 ≤ cap then ['.', '.'] else if cap ≠ 0 then ['.'] else [])
  else label

/-- `truncated_text`, of a text without lone surrogates. -/
def truncatedText (text : List Char) (maxBytes : Int) (marker : List Char) : List Char × Nat :=
  let raw := encode text
  let cap := cap maxBytes
  if raw.length ≤ cap then (text, raw.length)
  else
    let label := label marker cap
    let kept := utf8Prefix raw (cap - label.length)
    (decode kept ++ decode label, kept.length)

/-- What `utf8_prefix` returns of any bytes. -/
structure CutPrefix (raw : List UInt8) (maxBytes : Int) : Prop where
  isPrefix : utf8Prefix raw maxBytes <+: raw
  bounded : (utf8Prefix raw maxBytes).length ≤ cap maxBytes
  /-- At most three bytes are dropped, and only where they begin a last character. -/
  dropped : ∃ rest, raw.take (cap maxBytes) = utf8Prefix raw maxBytes ++ rest ∧ rest.length ≤ 3 ∧
    (rest = [] ∨ Incomplete rest ∧ ∃ text, utf8Prefix raw maxBytes = encode text)

/-- What `truncated_text` returns. -/
structure BoundedPreview (text : List Char) (maxBytes : Int) (marker : List Char) : Prop where
  bounded : (encode (truncatedText text maxBytes marker).1).length ≤ cap maxBytes
  unchanged : (truncatedText text maxBytes marker).1 = text → (encode text).length ≤ cap maxBytes
  whole : (encode text).length ≤ cap maxBytes → truncatedText text maxBytes marker = (text, (encode text).length)
  /-- Otherwise as many characters are kept as fit with the marker, or with its short form. -/
  cut : cap maxBytes < (encode text).length → ∃ kept mark, kept <+: text ∧
    (mark = marker ∨ cap maxBytes < (encode marker).length ∧ mark ∈ [['…'], ['.', '.'], ['.'], []]) ∧
    truncatedText text maxBytes marker = (kept ++ mark, (encode kept).length) ∧
    ∀ longer, longer <+: text → kept.length < longer.length →
      cap maxBytes < (encode longer).length + (encode mark).length

theorem cutPrefix (raw : List UInt8) (maxBytes : Int) : CutPrefix raw maxBytes := by
  have hsplit : ∃ rest, raw.take (cap maxBytes) = utf8Prefix raw maxBytes ++ rest ∧
      (rest = [] ∨ Incomplete rest ∧ ∃ text, utf8Prefix raw maxBytes = encode text) := by
    unfold utf8Prefix
    dsimp only
    generalize raw.take (cap maxBytes) = candidate
    cases hdangling : dangling candidate with
    | none => exact ⟨[], (List.append_nil _).symm, .inl rfl⟩
    | some k =>
        obtain ⟨text, rest, rfl, rfl, hend⟩ := dangling_eq_some_iff.mp hdangling
        dsimp only
        rw [List.length_append, Nat.add_sub_cancel, List.take_left]
        exact ⟨rest, rfl, hend.imp id fun h => ⟨h, text, rfl⟩⟩
  obtain ⟨rest, htake, hend⟩ := hsplit
  have hpre : utf8Prefix raw maxBytes <+: raw.take (cap maxBytes) := ⟨rest, htake.symm⟩
  refine ⟨hpre.trans (List.take_prefix _ _), ?_, rest, htake, ?_, hend⟩
  · exact hpre.length_le.trans (List.length_take_le _ _)
  · rcases hend with rfl | ⟨hincomplete, -⟩
    · exact Nat.zero_le 3
    · exact hincomplete.length_le

/-- Of a text `utf8_prefix` keeps the characters that fit. -/
theorem utf8Prefix_encode (text : List Char) (maxBytes : Int) :
    ∃ kept, kept <+: text ∧ utf8Prefix (encode text) maxBytes = encode kept ∧
      ∀ longer, longer <+: text → kept.length < longer.length → cap maxBytes < (encode longer).length := by
  obtain ⟨kept, rest, hpre, htake, hend, hmax⟩ := take_encode text (cap maxBytes)
  refine ⟨kept, hpre, ?_, hmax⟩
  unfold utf8Prefix
  dsimp only
  rw [dangling_eq_some_iff.mpr ⟨kept, rest, htake, rfl, hend⟩]
  dsimp only
  rw [htake, List.length_append, Nat.add_sub_cancel, List.take_left]

theorem label_eq (marker : List Char) (cap : Nat) :
    ∃ mark, label marker cap = encode mark ∧
      (mark = marker ∨ cap < (encode marker).length ∧ mark ∈ [['…'], ['.', '.'], ['.'], []]) ∧
        (label marker cap).length ≤ cap := by
  unfold label
  dsimp only
  split
  · rename_i hlong
    refine ⟨_, rfl, .inr ⟨hlong, ?_⟩, ?_⟩
    · split
      · simp
      split
      · simp
      split <;> simp
    · split
      · rename_i hthree
        exact hthree
      split
      · rename_i htwo
        exact htwo
      split
      · rename_i hone
        exact Nat.one_le_iff_ne_zero.mpr hone
      · exact Nat.zero_le _
  · rename_i hfits
    exact ⟨marker, rfl, .inl rfl, not_lt.mp hfits⟩

/-- **A preview is bounded, and as long as it can be.** -/
theorem boundedPreview (text : List Char) (maxBytes : Int) (marker : List Char) :
    BoundedPreview text maxBytes marker := by
  by_cases hfits : (encode text).length ≤ cap maxBytes
  · have hwhole : truncatedText text maxBytes marker = (text, (encode text).length) := by
      unfold truncatedText
      dsimp only
      rw [if_pos hfits]
    exact ⟨by rw [hwhole]; exact hfits, fun _ => hfits, fun _ => hwhole,
      fun hlong => absurd hfits (not_le.mpr hlong)⟩
  · obtain ⟨mark, hlabel, hmark, hlen⟩ := label_eq marker (cap maxBytes)
    obtain ⟨kept, hpre, hkept, hmax⟩ :=
      utf8Prefix_encode text ((cap maxBytes : Int) - (label marker (cap maxBytes)).length)
    have hroom : cap ((cap maxBytes : Int) - (label marker (cap maxBytes)).length) =
        cap maxBytes - (encode mark).length := by
      rw [hlabel] at hlen ⊢
      generalize cap maxBytes = n at hlen ⊢
      unfold cap
      omega
    have hresult : truncatedText text maxBytes marker = (kept ++ mark, (encode kept).length) := by
      unfold truncatedText
      dsimp only
      rw [if_neg hfits, hkept, hlabel, decode_encode, decode_encode]
    have hsize := (cutPrefix (encode text) ((cap maxBytes : Int) - (label marker (cap maxBytes)).length)).bounded
    rw [hkept, hroom] at hsize
    rw [hlabel] at hlen
    have hbounded : (encode (truncatedText text maxBytes marker).1).length ≤ cap maxBytes := by
      rw [hresult, encode_append, List.length_append]
      omega
    refine ⟨hbounded, fun hsame => ?_, fun hwhole => absurd hwhole hfits,
      fun _ => ⟨kept, mark, hpre, hmark, hresult, fun longer hlonger hlong => ?_⟩⟩
    · rwa [hsame] at hbounded
    · have hmore := hmax longer hlonger hlong
      rw [hroom] at hmore
      omega

/-- **Bounded previews.** -/
theorem bounded_previews :
    (∀ text maxBytes marker, BoundedPreview text maxBytes marker) ∧ ∀ raw maxBytes, CutPrefix raw maxBytes :=
  ⟨boundedPreview, cutPrefix⟩

example : truncatedText ['a', 'é', 'b', 'c', 'd'] 5 ['!', '!', '!'] = (['a', '!', '!', '!'], 1) := by decide

end TextLimits
end VariantOne
