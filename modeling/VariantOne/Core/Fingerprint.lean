import VariantOne.Core.Value

/-!
# Fingerprints

The fingerprint of a request is the digest of its canonical text.  Two requests have the
same fingerprint exactly when their operations are equal and their arguments have the same
canonical form, provided the digest does not collide.

`requestFingerprint_inj` is the result: the document of a request holds the operation and the arguments
side by side, canonical texts are injective on canonical forms, and the digest is assumed to be so where
two of its inputs are compared.  The services that answer a repeated request from a row rest on it.
-/

namespace VariantOne

theorem except_map_eq_ok {ε α β : Type} {x : Except ε α} {f : α → β} {b : β} :
    x.map f = .ok b ↔ ∃ a, x = .ok a ∧ f a = b := by
  cases x with
  | error e => simp [Except.map]
  | ok a => simp [Except.map]

mutual

/-- The path only enters the texts of errors. -/
theorem strictJsonValue_path (v : PyValue) {j : Json} {path : String} (path' : String)
    (h : strictJsonValue v path = .ok j) : strictJsonValue v path' = .ok j := by
  cases v with
  | none | bool | int | float | str => exact h
  | nonFinite | bytes | foreign => exact absurd h (by simp [strictJsonValue])
  | list vs | tuple vs =>
      rw [strictJsonValue, except_map_eq_ok] at h
      obtain ⟨js, hjs, rfl⟩ := h
      rw [strictJsonValue, strictItems_path vs path' 0 hjs]
      rfl
  | dict es =>
      rw [strictJsonValue, except_map_eq_ok] at h
      obtain ⟨js, hjs, rfl⟩ := h
      rw [strictJsonValue, strictEntries_path es path' hjs]
      rfl
  | record v =>
      rw [strictJsonValue] at h ⊢
      exact strictJsonValue_path v path' h

theorem strictItems_path (vs : List PyValue) {js : List Json} {path : String} {index : Nat}
    (path' : String) (index' : Nat) (h : strictItems vs path index = .ok js) :
    strictItems vs path' index' = .ok js := by
  cases vs with
  | nil => exact h
  | cons v vs =>
      rw [strictItems] at h ⊢
      cases hv : strictJsonValue v s!"{path}[{index}]" with
      | error e => rw [hv] at h; exact absurd h (by simp)
      | ok j =>
          rw [hv] at h
          rw [strictJsonValue_path v _ hv]
          obtain ⟨rest, hrest, rfl⟩ := except_map_eq_ok.mp h
          show Except.map _ _ = _
          rw [strictItems_path vs path' (index' + 1) hrest]
          rfl

theorem strictEntries_path (es : PyDict) {js : List (String × Json)} {path : String}
    (path' : String) (h : strictEntries es path = .ok js) : strictEntries es path' = .ok js := by
  cases es with
  | nil => exact h
  | cons p es =>
      obtain ⟨k, v⟩ := p
      rw [strictEntries] at h ⊢
      cases hv : strictJsonValue v s!"{path}.{k}" with
      | error e => rw [hv] at h; exact absurd h (by simp)
      | ok j =>
          rw [hv] at h
          rw [strictJsonValue_path v _ hv]
          obtain ⟨rest, hrest, rfl⟩ := except_map_eq_ok.mp h
          show Except.map _ _ = _
          rw [strictEntries_path es path' hrest]
          rfl

end

/-- The document a fingerprint digests. -/
def requestDocument (operation : String) (arguments : Json) : Json :=
  .obj [("operation", .str operation), ("arguments", arguments)]

theorem canon_requestDocument_inj {operation operation' : String} {a a' : Json}
    (h : (requestDocument operation a).canon = (requestDocument operation' a').canon) :
    operation = operation' ∧ a.canon = a'.canon := by
  simp only [requestDocument, Json.canon, Json.canonEntries, Json.obj.injEq] at h
  have hperm := Dict.perm_of_sort_eq h
  constructor
  · have hmem := hperm.subset (List.mem_cons_self (a := ("operation", Json.str operation)))
    simpa using hmem
  · have hmem := hperm.subset
      (List.mem_cons_of_mem _ (List.mem_cons_self (a := ("arguments", a.canon))))
    simpa using hmem

/-- What a fingerprint is computed from. -/
theorem requestFingerprint_eq_ok {H : Host} {operation fingerprint : String} {a : PyDict} :
    requestFingerprint H operation (.dict a) = .ok fingerprint ↔
      ∃ es, strictEntries a "$" = .ok es ∧
        fingerprint = H.sha256 (Json.dumps (requestDocument operation (.obj es))) := by
  unfold requestFingerprint
  rw [except_map_eq_ok]
  constructor
  · rintro ⟨j, hj, rfl⟩
    rw [strictJsonValue, except_map_eq_ok] at hj
    obtain ⟨es, hes, rfl⟩ := hj
    exact ⟨es, hes, rfl⟩
  · rintro ⟨es, hes, rfl⟩
    refine ⟨.obj es, ?_, rfl⟩
    rw [strictJsonValue, hes]
    rfl

/-- **Equal fingerprints, equal requests.** -/
theorem requestFingerprint_inj {H : Host} (hinj : Function.Injective H.sha256)
    {operation operation' : String} {es es' : List (String × Json)} :
    H.sha256 (Json.dumps (requestDocument operation (.obj es))) =
        H.sha256 (Json.dumps (requestDocument operation' (.obj es'))) ↔
      operation = operation' ∧ Json.canon (.obj es) = Json.canon (.obj es') := by
  rw [hinj.eq_iff, Json.dumps_eq_dumps_iff]
  constructor
  · exact canon_requestDocument_inj
  · rintro ⟨rfl, ha⟩
    simp only [requestDocument, Json.canon, Json.canonEntries] at ha ⊢
    rw [ha]

end VariantOne
