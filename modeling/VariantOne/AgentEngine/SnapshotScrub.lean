import VariantOne.AgentEngine.SnapshotEffects
import VariantOne.Core.Document
import VariantOne.Core.Fingerprint

/-!
# Scrubbing and reading back

A state is clean when scrubbing removes nothing from it.  Scrubbing gives a clean state, and
so does sorting its keys: whether an object is the source of an image depends on two texts,
and neither operation brings a text into being.

Reading a state back sorts its keys at every level.  A field whose value this leaves alone
reads as before; `settled` asks that of the fields that loading compares.

A field whose value the contract of a run fixes is a text or a number in every valid state, since the text
of a container starts with a bracket (`settledAt_of_valid`); and a scope is checked alike however its keys
stand.  So only identities and status are left to be settled, and `validateRunState_storedDoc` and
`stateFields_storedDoc` say that a settled state passes its checks again and keeps its columns.
-/

namespace VariantOne

namespace AgentEngine

variable {C : SnapshotCodec}

/-! ## 1.  Stored documents -/

theorem get?_storedDoc (es : Doc) (k : String) :
    Dict.get? (storedDoc es) k = (Dict.get? es k).map Json.canon := by
  rw [storedDoc, Dict.get?_sort, get?_canonEntries]

theorem canon_obj (es : Doc) : Json.canon (.obj es) = .obj (storedDoc es) := by
  rw [Json.canon]
  rfl

theorem storedDoc_storedDoc (es : Doc) : storedDoc (storedDoc es) = storedDoc es := by
  have h := Json.canon_canon (.obj es)
  rw [canon_obj, canon_obj] at h
  exact Json.obj.inj h

/-! ## 2.  Image sources -/

/-- The text of a JSON value that is a text. -/
def jsonText : Json → Option String
  | .str s => some s
  | _ => none

theorem str?_toPy (v : Json) : v.toPy.str? = jsonText v := by
  cases v <;> rfl

theorem eq_str_of_str? {v : PyValue} {s : String} (h : v.str? = some s) : v = .str s := by
  cases v <;> cases h
  rfl

theorem text_of_str?_none {P : Interpreter} {v : PyValue} (h : v.str? = none) :
    P.text v = P.str v := by
  cases v <;> first | rfl | cases h

/-- An image source is known by two texts. -/
theorem imageSource_iff {es : PyDict} :
    C.imageSource es = true ↔ ∃ s m, Dict.get? es "type" = some (.str s) ∧ C.P.lower s = "base64" ∧
      Dict.get? es "media_type" = some (.str m) ∧
      "image/".toList.isPrefixOf (C.P.lower m).toList = true := by
  have hfield : ∀ k (p : String → Bool), p (C.P.lower "") = false →
      (∀ v : PyValue, v.str? = none → p (C.P.lower (C.P.str v)) = false) →
      (p (C.P.lower (C.P.field es k)) = true ↔
        ∃ s, Dict.get? es k = some (.str s) ∧ p (C.P.lower s) = true) := by
    intro k p hempty hother
    unfold Interpreter.field orElse
    cases hk : Dict.get? es k with
    | none =>
        dsimp only [Interpreter.text]
        simp [hempty]
    | some v =>
        dsimp only
        cases hv : v.str? with
        | some s =>
            obtain rfl := eq_str_of_str? hv
            by_cases hs : s = ""
            · subst hs
              simp [PyValue.truthy, Interpreter.text, hempty]
            · simp [PyValue.truthy, Interpreter.text, hs]
        | none =>
            have hnot : ∀ s, v ≠ .str s := by
              rintro s rfl
              cases hv
            split
            · rw [text_of_str?_none hv, hother v hv]
              simp [hnot]
            · simp [Interpreter.text, hempty, hnot]
  unfold SnapshotCodec.imageSource
  rw [Bool.and_eq_true,
    hfield "type" (fun s => decide (s = "base64")) (by rw [C.lower_empty]; decide)
      (fun v hv => decide_eq_false (C.lower_str v hv).1),
    hfield "media_type" (fun s => "image/".toList.isPrefixOf s.toList) (by rw [C.lower_empty]; decide)
      (fun v hv => (C.lower_str v hv).2)]
  constructor
  · rintro ⟨⟨s, hs, hlower⟩, m, hm, himage⟩
    exact ⟨s, m, hs, by simpa using hlower, hm, himage⟩
  · rintro ⟨s, m, hs, hlower, hm, himage⟩
    exact ⟨⟨s, hs, by simpa using hlower⟩, m, hm, himage⟩

/-- Entries that bring no text into being make no image source. -/
theorem imageSource_mono {es es' : PyDict}
    (h : ∀ k s, Dict.get? es' k = some (.str s) → s ≠ "" → Dict.get? es k = some (.str s))
    (himage : C.imageSource es' = true) : C.imageSource es = true := by
  obtain ⟨s, m, hs, hlower, hm, hprefix⟩ := imageSource_iff.mp himage
  refine imageSource_iff.mpr ⟨s, m, h _ s hs ?_, hlower, h _ m hm ?_, hprefix⟩
  · rintro rfl
    rw [C.lower_empty] at hlower
    exact absurd hlower (by decide)
  · rintro rfl
    rw [C.lower_empty] at hprefix
    exact absurd hprefix (by decide)

theorem holdsImage_mono {key text : String} {source source' : Bool}
    (hsource : source' = true → source = true) (h : holdsImage source' key text = true) :
    holdsImage source key text = true := by
  cases source' with
  | true => rwa [hsource rfl]
  | false =>
      cases source with
      | false => exact h
      | true =>
          unfold holdsImage at h ⊢
          simp only [Bool.false_and, Bool.or_false, Bool.or_eq_true, Bool.and_eq_true] at h ⊢
          rcases h with ⟨hne, hkey⟩ | h
          · exact .inl ⟨hne, .inl hkey⟩
          · exact .inr h

/-- A blanked text holds no image. -/
theorem holdsImage_empty (source : Bool) (key : String) : holdsImage source key "" = false := by
  have hurl : isImageUrl "" = false := by decide
  unfold holdsImage
  rw [hurl, Bool.and_false, Bool.or_false]
  rfl

/-! ## 3.  Clean states -/

mutual

/-- Scrubbing removes nothing. -/
def SnapshotCodec.clean (C : SnapshotCodec) : Json → Bool
  | .str s => !isInlineImage s
  | .arr vs => cleanItems C vs
  | .obj es => cleanEntries C (C.imageSource (entriesToPy es)) es
  | .null | .bool _ | .int _ | .float _ => true

/-- `clean`, item by item. -/
def SnapshotCodec.cleanItems (C : SnapshotCodec) : List Json → Bool
  | [] => true
  | v :: vs => clean C v && cleanItems C vs

/-- `clean`, entry by entry. -/
def SnapshotCodec.cleanEntries (C : SnapshotCodec) (source : Bool) : Doc → Bool
  | [] => true
  | (k, v) :: es =>
      !(jsonText v).any (holdsImage source k) && clean C v && cleanEntries C source es

end

/-- An entry that scrubbing leaves alone. -/
def SnapshotCodec.CleanEntry (C : SnapshotCodec) (source : Bool) (p : String × Json) : Prop :=
  (jsonText p.2).any (holdsImage source p.1) = false ∧ C.clean p.2 = true

theorem cleanEntries_iff {source : Bool} {es : Doc} :
    C.cleanEntries source es = true ↔ ∀ p ∈ es, C.CleanEntry source p := by
  induction es with
  | nil => simp [SnapshotCodec.cleanEntries]
  | cons p es ih =>
      obtain ⟨k, v⟩ := p
      rw [SnapshotCodec.cleanEntries, Bool.and_eq_true, Bool.and_eq_true, ih, List.forall_mem_cons,
        Bool.not_eq_true']
      rfl

/-- The entries of an object that is clean. -/
def SnapshotCodec.cleanDoc (C : SnapshotCodec) (es : Doc) : Bool :=
  C.cleanEntries (C.imageSource (entriesToPy es)) es

theorem clean_obj (es : Doc) : C.clean (.obj es) = C.cleanDoc es := by
  rw [SnapshotCodec.clean]
  rfl

mutual

/-- Scrubbing leaves a clean state as it is. -/
theorem normalizeAndScrub_clean (j : Json) (h : C.clean j = true) (path : String) :
    C.normalizeAndScrub j.toPy path = .ok (j, 0) := by
  cases j with
  | str s =>
      rw [SnapshotCodec.clean, Bool.not_eq_true'] at h
      rw [Json.toPy, SnapshotCodec.normalizeAndScrub, h]
      rfl
  | arr vs =>
      rw [SnapshotCodec.clean] at h
      rw [Json.toPy, SnapshotCodec.normalizeAndScrub, scrubItems_clean vs h]
      rfl
  | obj es =>
      rw [SnapshotCodec.clean] at h
      rw [Json.toPy, SnapshotCodec.normalizeAndScrub, scrubEntries_clean es h]
      rfl
  | _ => rfl

theorem scrubItems_clean (vs : List Json) (h : C.cleanItems vs = true) (path : String) (index : Nat) :
    C.scrubItems (itemsToPy vs) path index = .ok (vs, 0) := by
  cases vs with
  | nil => rfl
  | cons v vs =>
      rw [SnapshotCodec.cleanItems, Bool.and_eq_true] at h
      rw [itemsToPy, SnapshotCodec.scrubItems, normalizeAndScrub_clean v h.1]
      dsimp only
      rw [scrubItems_clean vs h.2]
      rfl

theorem scrubEntries_clean {source : Bool} (es : Doc) (h : C.cleanEntries source es = true)
    (path : String) : C.scrubEntries source (entriesToPy es) path = .ok (es, 0) := by
  cases es with
  | nil => rfl
  | cons p es =>
      obtain ⟨k, v⟩ := p
      rw [SnapshotCodec.cleanEntries, Bool.and_eq_true, Bool.and_eq_true, Bool.not_eq_true'] at h
      rw [entriesToPy, SnapshotCodec.scrubEntries, str?_toPy, h.1.1, if_neg (by simp),
        normalizeAndScrub_clean v h.1.2]
      dsimp only
      rw [scrubEntries_clean es h.2]
      rfl

end

/-! ## 4.  What scrubbing gives -/

/-- The entry of the scrubbed state that comes of an entry. -/
def SnapshotCodec.ScrubsTo (C : SnapshotCodec) (source : Bool) (key : String) (v : PyValue)
    (j : Json) : Prop :=
  (v.str?.any (holdsImage source key) = true ∧ j = .str "") ∨
    (v.str?.any (holdsImage source key) = false ∧
      ∃ path n, C.normalizeAndScrub v path = .ok (j, n))

/-- Scrubbing works entry by entry. -/
theorem scrubEntries_cons {source : Bool} {key : String} {v : PyValue} {es : PyDict} {path : String}
    {r : Doc × Nat} (h : C.scrubEntries source ((key, v) :: es) path = .ok r) :
    ∃ j es' n, r.1 = (key, j) :: es' ∧ C.ScrubsTo source key v j ∧
      C.scrubEntries source es path = .ok (es', n) := by
  rw [SnapshotCodec.scrubEntries] at h
  split at h
  · rename_i himage
    obtain ⟨⟨es', n⟩, hrest, rfl⟩ := except_map_eq_ok.mp h
    exact ⟨.str "", es', n, rfl, .inl ⟨himage, rfl⟩, hrest⟩
  · rename_i himage
    split at h
    · cases h
    · rename_i j n hv
      obtain ⟨⟨es', m⟩, hrest, rfl⟩ := except_map_eq_ok.mp h
      exact ⟨j, es', m, rfl, .inr ⟨by simpa using himage, _, n, hv⟩, hrest⟩

/-- A key keeps its place, and its value is scrubbed. -/
theorem get?_scrubEntries {source : Bool} {path : String} {k : String} :
    ∀ {es : PyDict} {r : Doc × Nat}, C.scrubEntries source es path = .ok r →
      Option.Rel (C.ScrubsTo source k) (Dict.get? es k) (Dict.get? r.1 k)
  | [], _, h => by
      cases h
      exact .none
  | (key, v) :: es, _, h => by
      obtain ⟨j, es', n, hr, hv, hrest⟩ := scrubEntries_cons h
      rw [hr, Dict.get?_cons, Dict.get?_cons]
      split
      · rename_i hkey
        obtain rfl : key = k := hkey
        exact .some hv
      · exact get?_scrubEntries hrest

/-- Scrubbing brings no text into being. -/
theorem SnapshotCodec.ScrubsTo.eq_str {source : Bool} {key s : String} {v : PyValue}
    (h : C.ScrubsTo source key v (.str s)) (hs : s ≠ "") : v = .str s := by
  rcases h with ⟨-, h⟩ | ⟨-, path, n, h⟩
  · cases h
    exact absurd rfl hs
  · cases v with
    | str t =>
        rw [SnapshotCodec.normalizeAndScrub] at h
        split at h
        · cases h
          exact absurd rfl hs
        · cases h
          rfl
    | list vs | tuple vs | dict vs =>
        rw [SnapshotCodec.normalizeAndScrub] at h
        obtain ⟨r, -, hr⟩ := except_map_eq_ok.mp h
        cases hr
    | _ => cases h

/-- An object stays an object. -/
theorem SnapshotCodec.ScrubsTo.of_obj {source : Bool} {key : String} {es : Doc} {j : Json}
    (h : C.ScrubsTo source key (Json.obj es).toPy j) :
    ∃ r path, j = .obj r.1 ∧
      C.scrubEntries (C.imageSource (entriesToPy es)) (entriesToPy es) path = .ok r := by
  rcases h with ⟨h, -⟩ | ⟨-, path, n, h⟩
  · cases h
  · rw [Json.toPy, SnapshotCodec.normalizeAndScrub] at h
    obtain ⟨r, hr, hj⟩ := except_map_eq_ok.mp h
    cases hj
    exact ⟨r, path, rfl, hr⟩

/-- An entry that is clean stays. -/
theorem SnapshotCodec.ScrubsTo.of_clean {source : Bool} {key : String} {v j : Json}
    (h : C.ScrubsTo source key v.toPy j) (hclean : C.CleanEntry source (key, v)) : j = v := by
  rcases h with ⟨h, -⟩ | ⟨-, path, n, h⟩
  · rw [str?_toPy, hclean.1] at h
    cases h
  · rw [normalizeAndScrub_clean v hclean.2] at h
    cases h
    rfl

theorem SnapshotCodec.ScrubsTo.clean_text {source : Bool} {key : String} {v : PyValue} {j : Json}
    (h : C.ScrubsTo source key v j) : (jsonText j).any (holdsImage source key) = false := by
  cases j with
  | str s =>
      rw [jsonText, Option.any_some]
      by_cases hs : s = ""
      · rw [hs, holdsImage_empty]
      · rw [h.eq_str hs] at h
        rcases h with ⟨-, hempty⟩ | ⟨himage, -⟩
        · exact absurd (Json.str.inj hempty) hs
        · exact himage
  | _ => rfl

theorem imageSource_scrubEntries {source : Bool} {es : PyDict} {path : String} {r : Doc × Nat}
    (h : C.scrubEntries source es path = .ok r)
    (himage : C.imageSource (entriesToPy r.1) = true) : C.imageSource es = true := by
  refine imageSource_mono ?_ himage
  intro k s hk hs
  rw [get?_entriesToPy] at hk
  have hrel := get?_scrubEntries (k := k) h
  revert hrel
  cases hj : Dict.get? r.1 k with
  | none =>
      rw [hj] at hk
      cases hk
  | some j =>
      rw [hj] at hk
      obtain rfl : j = .str s := by
        cases j <;> cases hk
        rfl
      generalize Dict.get? es k = o
      rintro (hv | _)
      rw [SnapshotCodec.ScrubsTo.eq_str hv hs]

theorem SnapshotCodec.CleanEntry.mono {source source' : Bool} {p : String × Json}
    (hsource : source' = true → source = true) (h : C.CleanEntry source p) :
    C.CleanEntry source' p := by
  refine ⟨?_, h.2⟩
  have htext := h.1
  cases ht : jsonText p.2 with
  | none => rfl
  | some text =>
      rw [ht, Option.any_some] at htext
      rw [Option.any_some, Bool.eq_false_iff]
      intro himage
      rw [holdsImage_mono hsource himage] at htext
      cases htext

theorem cleanEntries_mono {source source' : Bool} {es : Doc}
    (hsource : source' = true → source = true) (h : C.cleanEntries source es = true) :
    C.cleanEntries source' es = true :=
  cleanEntries_iff.mpr fun p hp => SnapshotCodec.CleanEntry.mono hsource (cleanEntries_iff.mp h p hp)

mutual

/-- A scrubbed state is clean. -/
theorem clean_normalizeAndScrub (v : PyValue) {path : String} {j : Json} {n : Nat}
    (h : C.normalizeAndScrub v path = .ok (j, n)) : C.clean j = true := by
  cases v with
  | str s =>
      rw [SnapshotCodec.normalizeAndScrub] at h
      split at h
      · cases h
        rw [SnapshotCodec.clean]
        decide
      · rename_i himage
        cases h
        rw [SnapshotCodec.clean]
        simpa using himage
  | list vs | tuple vs =>
      rw [SnapshotCodec.normalizeAndScrub] at h
      obtain ⟨r, hr, hj⟩ := except_map_eq_ok.mp h
      cases hj
      rw [SnapshotCodec.clean]
      exact clean_scrubItems vs hr
  | dict es =>
      rw [SnapshotCodec.normalizeAndScrub] at h
      obtain ⟨r, hr, hj⟩ := except_map_eq_ok.mp h
      cases hj
      rw [SnapshotCodec.clean]
      exact cleanEntries_mono (imageSource_scrubEntries hr) (clean_scrubEntries es hr)
  | none | bool | int | float =>
      cases h
      rfl
  | _ => cases h

theorem clean_scrubItems (vs : List PyValue) {path : String} {index : Nat} {r : List Json × Nat}
    (h : C.scrubItems vs path index = .ok r) : C.cleanItems r.1 = true := by
  cases vs with
  | nil =>
      cases h
      rfl
  | cons v vs =>
      rw [SnapshotCodec.scrubItems] at h
      split at h
      · cases h
      · rename_i j n hv
        obtain ⟨r', hrest, rfl⟩ := except_map_eq_ok.mp h
        rw [SnapshotCodec.cleanItems, clean_normalizeAndScrub v hv, clean_scrubItems vs hrest]
        rfl

theorem clean_scrubEntries (es : PyDict) {source : Bool} {path : String} {r : Doc × Nat}
    (h : C.scrubEntries source es path = .ok r) : C.cleanEntries source r.1 = true := by
  cases es with
  | nil =>
      cases h
      rfl
  | cons p es =>
      obtain ⟨k, v⟩ := p
      rw [SnapshotCodec.scrubEntries] at h
      split at h
      · obtain ⟨r', hrest, rfl⟩ := except_map_eq_ok.mp h
        rw [SnapshotCodec.cleanEntries, clean_scrubEntries es hrest, SnapshotCodec.clean, jsonText,
          Option.any_some, holdsImage_empty]
        decide
      · rename_i himage
        split at h
        · cases h
        · rename_i j n hv
          obtain ⟨r', hrest, rfl⟩ := except_map_eq_ok.mp h
          have htext := SnapshotCodec.ScrubsTo.clean_text (.inr ⟨by simpa using himage, _, n, hv⟩)
          rw [SnapshotCodec.cleanEntries, clean_scrubEntries es hrest, clean_normalizeAndScrub v hv,
            htext]
          rfl

end

/-- Scrubbing is idempotent: a scrubbed state holds nothing that a second scrub would
remove. -/
theorem scrubEntries_scrubEntries {es : PyDict} {path : String} {r : Doc × Nat}
    (h : C.scrubEntries (C.imageSource es) es path = .ok r) (path' : String) :
    C.cleanDoc r.1 = true ∧
      C.scrubEntries (C.imageSource (entriesToPy r.1)) (entriesToPy r.1) path' = .ok (r.1, 0) := by
  have hclean : C.cleanDoc r.1 = true :=
    cleanEntries_mono (imageSource_scrubEntries h) (clean_scrubEntries es h)
  exact ⟨hclean, scrubEntries_clean r.1 hclean path'⟩

/-! ## 5.  Reading back -/

theorem jsonText_canon (v : Json) : jsonText (Json.canon v) = jsonText v := by
  cases v <;> rw [Json.canon] <;> rfl

theorem canon_eq_str {v : Json} {s : String} (h : (Json.canon v).toPy = .str s) : v = .str s := by
  cases v <;> rw [Json.canon] at h <;> cases h
  rfl

theorem imageSource_storedDoc {es : Doc}
    (h : C.imageSource (entriesToPy (storedDoc es)) = true) :
    C.imageSource (entriesToPy es) = true := by
  refine imageSource_mono ?_ h
  intro k s hk _
  rw [get?_entriesToPy, get?_storedDoc, Option.map_map] at hk
  obtain ⟨v, hv, hs⟩ := Option.map_eq_some_iff.mp hk
  rw [get?_entriesToPy, hv, canon_eq_str hs]
  rfl

theorem mem_storedDoc {es : Doc} {p : String × Json} (h : p ∈ storedDoc es) :
    ∃ v, (p.1, v) ∈ es ∧ p.2 = Json.canon v := by
  have hp : p ∈ Json.canonEntries es := (Dict.sort_perm _).mem_iff.mp h
  rw [Json.canonEntries_eq_map] at hp
  obtain ⟨q, hq, rfl⟩ := List.mem_map.mp hp
  exact ⟨q.2, hq, rfl⟩

/-- Entries that are clean one by one read back clean. -/
theorem cleanDoc_storedDoc_of {es : Doc} (htext : C.cleanDoc es = true)
    (hvalues : ∀ p ∈ es, C.clean (Json.canon p.2) = true) : C.cleanDoc (storedDoc es) = true := by
  refine cleanEntries_mono imageSource_storedDoc (cleanEntries_iff.mpr ?_)
  intro p hp
  obtain ⟨v, hv, hpv⟩ := mem_storedDoc hp
  refine ⟨?_, by rw [hpv]; exact hvalues _ hv⟩
  rw [hpv, jsonText_canon]
  exact (cleanEntries_iff.mp htext _ hv).1

mutual

/-- Sorting the keys of a clean state leaves it clean. -/
theorem clean_canon (j : Json) (h : C.clean j = true) : C.clean (Json.canon j) = true := by
  cases j with
  | arr vs =>
      rw [SnapshotCodec.clean] at h
      rw [Json.canon, SnapshotCodec.clean]
      exact clean_canonItems vs h
  | obj es =>
      rw [clean_obj] at h
      rw [canon_obj, clean_obj]
      exact cleanDoc_storedDoc_of h (clean_canonEntries es h)
  | _ =>
      rw [Json.canon]
      exact h

theorem clean_canonItems (vs : List Json) (h : C.cleanItems vs = true) :
    C.cleanItems (Json.canonItems vs) = true := by
  cases vs with
  | nil => rfl
  | cons v vs =>
      rw [SnapshotCodec.cleanItems, Bool.and_eq_true] at h
      rw [Json.canonItems, SnapshotCodec.cleanItems, clean_canon v h.1, clean_canonItems vs h.2]
      rfl

theorem clean_canonEntries (es : Doc) {source : Bool} (h : C.cleanEntries source es = true) :
    ∀ p ∈ es, C.clean (Json.canon p.2) = true := by
  cases es with
  | nil =>
      intro p hp
      cases hp
  | cons q es =>
      obtain ⟨k, v⟩ := q
      rw [SnapshotCodec.cleanEntries, Bool.and_eq_true, Bool.and_eq_true] at h
      rw [List.forall_mem_cons]
      exact ⟨clean_canon v h.1.2, clean_canonEntries es h.2⟩

end

theorem cleanDoc_storedDoc {es : Doc} (h : C.cleanDoc es = true) :
    C.cleanDoc (storedDoc es) = true :=
  cleanDoc_storedDoc_of h (clean_canonEntries es h)

theorem fits_storedDoc (es : Doc) : C.fits (storedDoc es) = C.fits es := by
  unfold SnapshotCodec.fits
  rw [Json.dumps, ← canon_obj, Json.canon_canon, ← Json.dumps]

theorem payloadChecksum_storedDoc (es : Doc) (completedNode nextNode codec : String)
    (privacy : Nat) :
    C.payloadChecksum (storedDoc es) completedNode nextNode codec privacy =
      C.payloadChecksum es completedNode nextNode codec privacy := by
  unfold SnapshotCodec.payloadChecksum
  have hcanon : Json.canon (.obj (storedDoc es)) = Json.canon (.obj es) := by
    rw [← canon_obj, Json.canon_canon]
  refine congrArg C.sha256 (Json.dumps_eq_dumps_iff.mpr ?_)
  rw [canon_obj, canon_obj]
  refine congrArg (fun es => Json.obj (Dict.sort es)) ?_
  simp only [Json.canonEntries, hcanon]

/-! ## 6.  Settled fields -/

/-- The value of a key is written as it stands. -/
def settledAt (es : Doc) (key : String) : Bool :=
  (Dict.get? es key).all fun v => decide (Json.dumps v = Json.render v)

/-- The fields that loading compares with the columns of the thread. -/
def comparedFields : List String := ["thread_id", "run_id", "chat_id", "status"]

/-- The compared fields are written as they stand: none of them holds an object whose keys are out of
order.  The id of the task counts where there is no run id. -/
def settled (es : Doc) : Bool :=
  comparedFields.all (settledAt es) &&
    ((item es "run_id").any PyValue.truthy || settledAt (subDoc es "task") "task_id")

theorem settledAt_iff {es : Doc} {key : String} :
    settledAt es key = true ↔ ∀ v, Dict.get? es key = some v → Json.canon v = v := by
  unfold settledAt
  cases Dict.get? es key with
  | none => simp
  | some v =>
      rw [Option.all_some, decide_eq_true_iff, Json.dumps]
      constructor
      · intro h w hw
        cases hw
        exact Json.render_injective h
      · intro h
        rw [h v rfl]

/-- A field that is written as it stands is read back as it was. -/
theorem get?_storedDoc_of_settledAt {es : Doc} {key : String} (h : settledAt es key = true) :
    Dict.get? (storedDoc es) key = Dict.get? es key := by
  rw [get?_storedDoc]
  cases hk : Dict.get? es key with
  | none => rfl
  | some v => rw [Option.map_some, settledAt_iff.mp h v hk]

theorem item_storedDoc {es : Doc} {key : String} (h : settledAt es key = true) :
    item (storedDoc es) key = item es key := by
  rw [item, item, get?_storedDoc_of_settledAt h]

theorem subDoc_storedDoc (es : Doc) (key : String) :
    subDoc (storedDoc es) key = storedDoc (subDoc es key) := by
  unfold subDoc
  rw [get?_storedDoc]
  cases Dict.get? es key with
  | none => rfl
  | some v =>
      cases v with
      | obj entries => rw [Option.map_some, canon_obj]
      | _ => rfl

/-! ## 7.  Containers -/

theorem canon_eq_self {v : Json} (h : isContainer v = false) : Json.canon v = v := by
  cases v with
  | arr vs => cases h
  | obj es => cases h
  | _ => rw [Json.canon]

theorem isContainer_canon (v : Json) : isContainer (Json.canon v) = isContainer v := by
  cases v <;> rw [Json.canon] <;> rfl

theorem text_container {v : Json} (h : isContainer v = true) : C.P.text v.toPy = C.P.str v.toPy := by
  cases v with
  | arr vs => rw [Json.toPy]; rfl
  | obj es => rw [Json.toPy]; rfl
  | _ => cases h

theorem toInt_container {v : Json} (h : isContainer v = true) : C.P.toInt v.toPy = none := by
  rw [← C.int_container v h]
  cases v with
  | arr vs => rw [Json.toPy]; rfl
  | obj es => rw [Json.toPy]; rfl
  | _ => cases h

theorem isSpace_bracket {c : Char} (h : c ∈ ['[', '\x7b', ']', '\x7d']) : isSpace c = false := by
  simp only [List.mem_cons, List.not_mem_nil, or_false] at h
  rcases h with rfl | rfl | rfl | rfl <;> decide

/-- A text between brackets has nothing to strip. -/
theorem strip_bracketed {text : String} (h : bracketed text = true) : strip text = text := by
  unfold bracketed at h
  simp only [Bool.and_eq_true, Option.any_eq_true] at h
  obtain ⟨⟨⟨c, hc, hopen⟩, d, hd, hclose⟩, -⟩ := h
  have hopen' : isSpace c = false :=
    isSpace_bracket (List.mem_append_left [']', '\x7d'] (List.contains_iff_mem.mp hopen))
  have hclose' : isSpace d = false :=
    isSpace_bracket (List.mem_append_right ['[', '\x7b'] (List.contains_iff_mem.mp hclose))
  have hfront : text.toList.dropWhile isSpace = text.toList := by
    cases htext : text.toList with
    | nil => rfl
    | cons c' cs =>
        rw [htext, List.head?_cons, Option.some.injEq] at hc
        rw [List.dropWhile_cons_of_neg (by rw [hc, hopen']; exact Bool.false_ne_true)]
  rw [strip_eq, stripChars, hfront, List.rdropWhile_eq_self_iff.mpr, String.ofList_toList]
  intro hne
  rw [List.getLast?_eq_getLast_of_ne_nil hne, Option.some.injEq] at hd
  rw [hd, hclose']
  exact Bool.false_ne_true

theorem badIdentifier_container {v : Json} (h : isContainer v = true) :
    C.badIdentifier (some v) = decide (512 < (C.P.str v.toPy).length) := by
  have hb := (C.str_container v h).1
  have hnul : (C.P.str v.toPy).toList.contains (Char.ofNat 0) = false := by
    unfold bracketed at hb
    simp only [Bool.and_eq_true, Bool.not_eq_true'] at hb
    exact hb.2
  have hbad : C.badIdentifier (some v) =
      (decide (512 < (strip (C.P.text v.toPy)).length) ||
        (strip (C.P.text v.toPy)).toList.contains (Char.ofNat 0)) := by
    cases v with
    | arr vs => rfl
    | obj es => rfl
    | _ => cases h
  rw [hbad, text_container h, strip_bracketed hb, hnul, Bool.or_false]

theorem badIdentifier_canon (v : Json) :
    C.badIdentifier (some (Json.canon v)) = C.badIdentifier (some v) := by
  cases h : isContainer v with
  | false => rw [canon_eq_self h]
  | true =>
      rw [badIdentifier_container h, badIdentifier_container (by rw [isContainer_canon, h]),
        (C.str_container v h).2]

theorem badNonnegativeInt_container {v : Json} (h : isContainer v = true) :
    C.badNonnegativeInt (some v) = true := by
  have hbad : C.badNonnegativeInt (some v) = (C.P.toInt v.toPy).all (· < 0) := by
    cases v with
    | arr vs => rfl
    | obj es => rfl
    | _ => cases h
  rw [hbad, toInt_container h]
  rfl

theorem badNonnegativeInt_canon (v : Json) :
    C.badNonnegativeInt (some (Json.canon v)) = C.badNonnegativeInt (some v) := by
  cases h : isContainer v with
  | false => rw [canon_eq_self h]
  | true =>
      rw [badNonnegativeInt_container h, badNonnegativeInt_container (by rw [isContainer_canon, h])]

/-! ## 8.  What a valid state holds -/

theorem firstText_of_truthy {v : Option PyValue} (h : v.any PyValue.truthy = true)
    (rest rest' : List (Option PyValue)) : C.firstText (v :: rest) = C.firstText (v :: rest') := by
  obtain ⟨w, rfl, hw⟩ := (Option.any_eq_true _ _).mp h
  simp only [SnapshotCodec.firstText, List.foldr_cons, orElse, hw, if_true]

theorem field_of_not_truthy {es : Doc} {key : String}
    (h : (item es key).any PyValue.truthy = false) : C.field es key = "" := by
  unfold SnapshotCodec.field SnapshotCodec.firstText
  rw [List.foldr_cons, List.foldr_nil]
  cases hv : item es key with
  | none => rfl
  | some v =>
      rw [hv, Option.any_some] at h
      simp only [orElse, h]
      rfl

/-- Only a container is not written as it stands. -/
theorem settledAt_of_container {es : Doc} {key : String}
    (h : ∀ v, Dict.get? es key = some v → isContainer v = true → False) : settledAt es key = true := by
  refine settledAt_iff.mpr fun v hv => ?_
  cases hcontainer : isContainer v with
  | false => exact canon_eq_self hcontainer
  | true => exact (h v hv hcontainer).elim

/-- A field whose text is not that of a container reads back as it is. -/
theorem settledAt_of_field {es : Doc} {key text : String} (h : strip (C.field es key) = text)
    (hplain : bracketed text = false) (hne : text ≠ "") : settledAt es key = true := by
  refine settledAt_of_container fun v hv hcontainer => ?_
  have hitem : item es key = some v.toPy := by rw [item, hv]; rfl
  have htruthy : v.toPy.truthy = true := by
    by_contra hfalse
    rw [field_of_not_truthy (by rw [hitem, Option.any_some, Bool.eq_false_iff.mpr hfalse])] at h
    exact hne (h ▸ by decide)
  have htext : C.field es key = C.P.str v.toPy := by
    rw [← text_container hcontainer]
    simp only [SnapshotCodec.field, SnapshotCodec.firstText, hitem, List.foldr_cons, List.foldr_nil,
      orElse, htruthy, if_true]
  have hbracketed := (C.str_container v hcontainer).1
  rw [htext, strip_bracketed hbracketed] at h
  rw [h, hplain] at hbracketed
  cases hbracketed

theorem strip_field_of_upgraded {es : Doc} {key text : String} (h : C.upgradedField es key = text)
    (hstrip : strip text = text) (hne : text ≠ "") : strip (C.field es key) = text := by
  unfold SnapshotCodec.upgradedField at h
  split at h
  · rename_i hempty
    rw [h, hstrip] at hempty
    exact absurd hempty hne
  · exact h

/-- The fields whose value the contract of a run fixes. -/
def contractFields : List String :=
  ["source", "state_schema_version", "graph_revision", "action_surface", "provider_tool_schema_revision"]

/-- Of these a valid state holds no container. -/
theorem settledAt_of_valid {es : Doc} {completedNode nextNode : String}
    (h : C.validateRunState es completedNode nextNode = .ok ()) :
    (∀ key ∈ contractFields, settledAt es key = true) ∧ strip (C.field es "status") ≠ "" := by
  unfold SnapshotCodec.validateRunState at h
  dsimp only at h
  obtain ⟨hsource, h⟩ := require_bind_eq_ok.mp h
  obtain ⟨_, hschema, h⟩ := except_bind_eq_ok.mp h
  obtain ⟨_, hcontract, h⟩ := except_bind_eq_ok.mp h
  obtain ⟨hsurface, h⟩ := require_bind_eq_ok.mp h
  obtain ⟨hprovider, h⟩ := require_bind_eq_ok.mp h
  obtain ⟨hstatus, -⟩ := require_bind_eq_ok.mp h
  refine ⟨?_, of_decide_eq_true hstatus⟩
  have hrevision : C.upgradedField es "graph_revision" =
      graphRevisionForSource (C.field es "source") := by
    unfold SnapshotCodec.checkContract SnapshotCodec.checkpointContractError at hcontract
    dsimp only at hcontract
    by_contra hne
    rw [if_pos hne] at hcontract
    split_ifs at hcontract
  have hversion : settledAt es "state_schema_version" = true := by
    refine settledAt_of_container fun v hv hcontainer => ?_
    unfold SnapshotCodec.checkSchema item at hschema
    rw [hv, Option.map_some, Option.getD_some, toInt_container hcontainer] at hschema
    cases hschema
  intro key hkey
  simp only [contractFields, List.mem_cons, List.not_mem_nil, or_false] at hkey
  rcases hkey with rfl | rfl | rfl | rfl | rfl
  · simp only [List.contains_eq_mem, List.mem_cons, List.not_mem_nil, or_false, decide_eq_true_eq] at hsource
    rcases hsource with hs | hs | hs <;>
      exact settledAt_of_field (C := C) (congrArg strip hs) (by decide) (by decide)
  · exact hversion
  · unfold graphRevisionForSource at hrevision
    split at hrevision <;>
      exact settledAt_of_field (strip_field_of_upgraded hrevision (by decide) (by decide)) (by decide) (by decide)
  · exact settledAt_of_field (of_decide_eq_true hsurface) (by decide) (by decide)
  · exact settledAt_of_field (of_decide_eq_true hprovider) (by decide) (by decide)

/-! ## 9.  Reading back what was encoded -/

theorem settledAt_of_mem {es : Doc} (h : settled es = true) {key : String}
    (hkey : key ∈ comparedFields) : settledAt es key = true := by
  unfold settled at h
  rw [Bool.and_eq_true, List.all_eq_true] at h
  exact h.1 key hkey

theorem item_compared {es : Doc} (h : settled es = true) (key : String)
    (hkey : key ∈ comparedFields) : item (storedDoc es) key = item es key :=
  item_storedDoc (settledAt_of_mem h hkey)

theorem field_storedDoc {es : Doc} {key : String} (h : settledAt es key = true) :
    C.field (storedDoc es) key = C.field es key := by
  rw [SnapshotCodec.field, SnapshotCodec.field, item_storedDoc h]

/-- The thread of a settled state is read back. -/
theorem stateThreadId_storedDoc {es : Doc} (h : settled es = true) :
    C.stateThreadId (storedDoc es) = C.stateThreadId es := by
  unfold SnapshotCodec.stateThreadId
  rw [item_compared h _ (by decide), item_compared h _ (by decide)]

/-- The columns of a settled state that is valid are read back. -/
theorem stateFields_storedDoc {es : Doc} {completedNode nextNode : String} (h : settled es = true)
    (hvalid : C.validateRunState es completedNode nextNode = .ok ()) :
    C.stateFields (storedDoc es) = C.stateFields es := by
  obtain ⟨hfixed, hstatus⟩ := settledAt_of_valid hvalid
  have hrun : C.firstText [item es "run_id", item (storedDoc (subDoc es "task")) "task_id"] =
      C.firstText [item es "run_id", item (subDoc es "task") "task_id"] := by
    have htask := h
    unfold settled at htask
    rw [Bool.and_eq_true, Bool.or_eq_true] at htask
    rcases htask.2 with htruthy | htask
    · exact firstText_of_truthy htruthy _ _
    · rw [item_storedDoc htask]
  -- a valid state has a status of its own
  have htruthy : (item es "status").any PyValue.truthy = true := by
    by_contra hfalse
    exact hstatus (by rw [field_of_not_truthy (Bool.eq_false_iff.mpr hfalse)]; decide)
  unfold SnapshotCodec.stateFields
  dsimp only
  rw [subDoc_storedDoc, item_compared h _ (by decide), item_compared h _ (by decide), hrun,
    field_storedDoc (hfixed _ (by decide)), field_storedDoc (settledAt_of_mem h (by decide)),
    firstText_of_truthy htruthy]

theorem upgradedField_storedDoc {es : Doc} {key : String} (h : settledAt es key = true) :
    C.upgradedField (storedDoc es) key = C.upgradedField es key := by
  rw [SnapshotCodec.upgradedField, SnapshotCodec.upgradedField, field_storedDoc h]

theorem upgradedSchema_storedDoc {es : Doc} (h : settledAt es "state_schema_version" = true) :
    C.upgradedSchema (storedDoc es) = C.upgradedSchema es := by
  unfold SnapshotCodec.upgradedSchema
  rw [get?_storedDoc_of_settledAt h]

theorem any_key_storedDoc (es : Doc) (p : String → Bool) :
    (storedDoc es).any (fun e => p e.1) = es.any fun e => p e.1 := by
  rw [Bool.eq_iff_iff, List.any_eq_true, List.any_eq_true]
  constructor
  · rintro ⟨e, he, hp⟩
    obtain ⟨v, hv, -⟩ := mem_storedDoc he
    exact ⟨_, hv, hp⟩
  · rintro ⟨e, he, hp⟩
    refine ⟨(e.1, Json.canon e.2), (Dict.sort_perm _).mem_iff.mpr ?_, hp⟩
    rw [Json.canonEntries_eq_map]
    exact List.mem_map.mpr ⟨e, he, rfl⟩

theorem badIdentifier_storedDoc (scope : Doc) (key : String) :
    C.badIdentifier (Dict.get? (storedDoc scope) key) = C.badIdentifier (Dict.get? scope key) := by
  rw [get?_storedDoc]
  cases Dict.get? scope key with
  | none => rfl
  | some v => exact badIdentifier_canon v

theorem badNonnegativeInt_storedDoc (scope : Doc) (key : String) :
    C.badNonnegativeInt (Dict.get? (storedDoc scope) key) = C.badNonnegativeInt (Dict.get? scope key) := by
  rw [get?_storedDoc]
  cases Dict.get? scope key with
  | none => rfl
  | some v => exact badNonnegativeInt_canon v

/-- A scope is checked alike before and after. -/
theorem validateWorkScope_storedDoc (es : Doc) :
    C.validateWorkScope (Dict.get? (storedDoc es) "work_scope") =
      C.validateWorkScope (Dict.get? es "work_scope") := by
  rw [get?_storedDoc]
  cases Dict.get? es "work_scope" with
  | none => rfl
  | some v =>
      cases v with
      | obj scope =>
          rw [Option.map_some, canon_obj, SnapshotCodec.validateWorkScope,
            SnapshotCodec.validateWorkScope, any_key_storedDoc scope unknownScopeField]
          simp only [badIdentifier_storedDoc, badNonnegativeInt_storedDoc]
      | _ => rfl

/-- A settled state that passed its checks passes them again when it is read back. -/
theorem validateRunState_storedDoc {es : Doc} {completedNode nextNode : String} (h : settled es = true)
    (hvalid : C.validateRunState es completedNode nextNode = .ok ()) :
    C.validateRunState (storedDoc es) completedNode nextNode = .ok () := by
  obtain ⟨hfixed, -⟩ := settledAt_of_valid hvalid
  rw [← hvalid]
  unfold SnapshotCodec.validateRunState SnapshotCodec.checkSchema SnapshotCodec.checkContract
    SnapshotCodec.checkpointContractError
  dsimp only
  rw [field_storedDoc (hfixed "source" (by decide)), item_storedDoc (hfixed "state_schema_version" (by decide)),
    upgradedField_storedDoc (hfixed "graph_revision" (by decide)),
    upgradedField_storedDoc (hfixed "action_surface" (by decide)),
    upgradedSchema_storedDoc (hfixed "state_schema_version" (by decide)),
    field_storedDoc (hfixed "action_surface" (by decide)),
    field_storedDoc (hfixed "provider_tool_schema_revision" (by decide)),
    field_storedDoc (settledAt_of_mem h (by decide : "status" ∈ comparedFields)),
    validateWorkScope_storedDoc]

end AgentEngine
end VariantOne
