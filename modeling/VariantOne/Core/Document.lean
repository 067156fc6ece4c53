import VariantOne.Core.Value

/-!
# Looking up in a document

A document is read back with the keys of every object sorted, and as a value of
the host language.  Neither changes what a key finds, nor which items there are.

`toPy` and `canon` go entry by entry, and sorting only permutes entries with different keys, so a lookup
passes through all three: `get?_sort`, `get?_entriesToPy` and `get?_canonEntries`.  The codecs use these
wherever a field is read of what was written and read back (`storedDict`).
-/

namespace VariantOne

namespace Dict

variable {κ α : Type} [LinearOrder κ]

/-- Sorting is stable, so a key finds what it found. -/
theorem get?_sort (d : List (κ × α)) (k : κ) : get? (sort d) k = get? d k := by
  have hinsert : ∀ (p : κ × α) (l : List (κ × α)),
      get? (l.orderedInsert (fun a b => a.1 ≤ b.1) p) k = if p.1 = k then some p.2 else get? l k := by
    intro p l
    induction l with
    | nil => rw [List.orderedInsert_nil, get?_cons]
    | cons q l ih =>
        rw [List.orderedInsert_cons]
        split
        · rw [get?_cons]
        · rename_i hlt
          rw [get?_cons, ih, get?_cons]
          by_cases hq : q.1 = k
          · rw [if_pos hq, if_pos hq, if_neg]
            intro hp
            exact hlt (hp.trans hq.symm).le
          · rw [if_neg hq, if_neg hq]
  induction d with
  | nil => rfl
  | cons p d ih =>
      show get? (List.orderedInsert _ p (sort d)) k = _
      rw [hinsert, ih, get?_cons]

end Dict

theorem entriesToPy_eq_map (es : List (String × Json)) :
    entriesToPy es = es.map fun p => (p.1, p.2.toPy) := by
  induction es with
  | nil => rfl
  | cons p es ih => rw [entriesToPy, ih, List.map_cons]

theorem get?_entriesToPy (es : List (String × Json)) (k : String) :
    Dict.get? (entriesToPy es) k = (Dict.get? es k).map Json.toPy := by
  induction es with
  | nil => rfl
  | cons p es ih =>
      obtain ⟨k', v⟩ := p
      rw [entriesToPy, Dict.get?_cons, Dict.get?_cons, ih]
      split <;> rfl

theorem get?_canonEntries (es : List (String × Json)) (k : String) :
    Dict.get? (Json.canonEntries es) k = (Dict.get? es k).map Json.canon := by
  induction es with
  | nil => rfl
  | cons p es ih =>
      obtain ⟨k', v⟩ := p
      rw [Json.canonEntries, Dict.get?_cons, Dict.get?_cons, ih]
      split <;> rfl

/-- `_json(value)`, as the document that is read back from its text. -/
def storedDict (value : PyDict) : Except Raised (List (String × Json)) :=
  (strictEntries value "$").map fun es => Dict.sort (Json.canonEntries es)

end VariantOne
