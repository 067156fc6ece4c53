import Mathlib.Data.List.Nodup

/-!
# Tables with a primary key

A table is a list of rows, in insertion order, no two of which have the same
key.  Uniqueness is a field, so a table that breaks its primary key cannot be
built and no proof about a table has to carry it.

What a statement does to a table is told row by row: `find?_mapRows` for an
update, `find?_insert` for an insertion.

An insertion under a key that is taken gives nothing (`insert?`), and an update carries the proof that it
leaves the key alone, so every state of every run has its primary keys by the type of its tables.
-/

namespace VariantOne

/-- In rows without a repeated key, a key selects one row. -/
theorem filter_eq_singleton {ρ κ : Type} [DecidableEq κ] {key : ρ → κ} {rows : List ρ} {r : ρ}
    {k : κ} (hu : (rows.map key).Nodup) (hr : r ∈ rows) (hk : key r = k) :
    (rows.filter fun x => key x = k) = [r] := by
  induction rows with
  | nil => exact absurd hr (by simp)
  | cons x rows ih =>
      rw [List.map_cons, List.nodup_cons] at hu
      rcases List.mem_cons.mp hr with rfl | hr
      · rw [List.filter_cons_of_pos (by simpa using hk), List.filter_eq_nil_iff.mpr]
        intro y hy
        have hne : key y ≠ k := fun hyk => hu.1 (hk.trans hyk.symm ▸ List.mem_map_of_mem hy)
        simpa using hne
      · have hne : key x ≠ k := fun hxk => hu.1 (hxk.trans hk.symm ▸ List.mem_map_of_mem hr)
        rw [List.filter_cons_of_neg (by simpa using hne)]
        exact ih hu.2 hr

/-- Rows with a primary key. -/
structure Table (ρ κ : Type) (key : ρ → κ) where
  /-- The rows, in insertion order. -/
  rows : List ρ
  unique : (rows.map key).Nodup

namespace Table

variable {ρ κ : Type} {key : ρ → κ}

/-- The table without rows. -/
def empty : Table ρ κ key := ⟨[], List.nodup_nil⟩

theorem ext_rows {t u : Table ρ κ key} (h : t.rows = u.rows) : t = u := by
  obtain ⟨rows, _⟩ := t
  obtain ⟨rows', _⟩ := u
  obtain rfl : rows = rows' := h
  rfl

/-- Rewrite every row, keeping its key. -/
def mapRows (t : Table ρ κ key) (f : ρ → ρ) (hf : ∀ r, key (f r) = key r) : Table ρ κ key where
  rows := t.rows.map f
  unique := by
    rw [List.map_map, show key ∘ f = key from funext hf]
    exact t.unique

/-- `UPDATE … SET f WHERE p`. -/
def updateWhere (t : Table ρ κ key) (p : ρ → Bool) (f : ρ → ρ) (hf : ∀ r, key (f r) = key r) :
    Table ρ κ key :=
  t.mapRows (fun r => if p r then f r else r) fun r => by
    by_cases hp : p r
    · rw [if_pos hp, hf]
    · rw [if_neg hp]

@[simp] theorem rows_empty : (empty : Table ρ κ key).rows = [] := rfl

@[simp] theorem rows_mapRows (t : Table ρ κ key) (f : ρ → ρ) (hf : ∀ r, key (f r) = key r) :
    (t.mapRows f hf).rows = t.rows.map f := rfl

@[simp] theorem rows_updateWhere (t : Table ρ κ key) (p : ρ → Bool) (f : ρ → ρ)
    (hf : ∀ r, key (f r) = key r) :
    (t.updateWhere p f hf).rows = t.rows.map fun r => if p r then f r else r := rfl

theorem eq_of_mem {t : Table ρ κ key} {r r' : ρ} (h : r ∈ t.rows) (h' : r' ∈ t.rows)
    (hk : key r = key r') : r = r' :=
  List.inj_on_of_nodup_map t.unique h h' hk

section Find

variable [DecidableEq κ]

/-- The row with a given key. -/
def find? (t : Table ρ κ key) (k : κ) : Option ρ := t.rows.find? fun r => key r = k

/-- `INSERT`: nothing when the key is taken. -/
def insert? (t : Table ρ κ key) (r : ρ) : Option (Table ρ κ key) :=
  if h : key r ∈ t.rows.map key then none
  else some
    { rows := t.rows ++ [r]
      unique := by
        rw [List.map_append]
        exact List.Nodup.append t.unique (by simp) (by simpa using h) }

@[simp] theorem find?_empty (k : κ) : (empty : Table ρ κ key).find? k = none := rfl

theorem find?_eq_some_iff {t : Table ρ κ key} {k : κ} {r : ρ} :
    t.find? k = some r ↔ r ∈ t.rows ∧ key r = k := by
  constructor
  · intro h
    exact ⟨List.mem_of_find?_eq_some h, by simpa using List.find?_some h⟩
  · rintro ⟨hr, hk⟩
    cases hf : t.find? k with
    | none =>
        have hno := List.find?_eq_none.mp hf r hr
        exact absurd hk (by simpa using hno)
    | some r' =>
        have hr' : r' ∈ t.rows := List.mem_of_find?_eq_some hf
        have hk' : key r' = k := by simpa using List.find?_some hf
        rw [eq_of_mem hr' hr (hk'.trans hk.symm)]

theorem find?_key_of_mem {t : Table ρ κ key} {r : ρ} (h : r ∈ t.rows) :
    t.find? (key r) = some r :=
  find?_eq_some_iff.mpr ⟨h, rfl⟩

theorem key_of_find? {t : Table ρ κ key} {k : κ} {r : ρ} (h : t.find? k = some r) : key r = k :=
  (find?_eq_some_iff.mp h).2

theorem mem_of_find? {t : Table ρ κ key} {k : κ} {r : ρ} (h : t.find? k = some r) : r ∈ t.rows :=
  (find?_eq_some_iff.mp h).1

theorem find?_eq_none_iff {t : Table ρ κ key} {k : κ} :
    t.find? k = none ↔ k ∉ t.rows.map key := by
  simp [find?, List.find?_eq_none]

/-- An update acts on the row a key finds. -/
theorem find?_mapRows (t : Table ρ κ key) (f : ρ → ρ) (hf : ∀ r, key (f r) = key r) (k : κ) :
    (t.mapRows f hf).find? k = (t.find? k).map f := by
  unfold find?
  rw [rows_mapRows, List.find?_map]
  have hp : ((fun r => decide (key r = k)) ∘ f) = fun r => decide (key r = k) := by
    funext r
    rw [Function.comp_apply, hf]
  rw [hp]

theorem find?_updateWhere (t : Table ρ κ key) (p : ρ → Bool) (f : ρ → ρ)
    (hf : ∀ r, key (f r) = key r) (k : κ) :
    (t.updateWhere p f hf).find? k = (t.find? k).map fun r => if p r then f r else r :=
  find?_mapRows t _ _ k

/-- An insertion succeeds when the key is new, and appends. -/
theorem insert?_eq_some {t u : Table ρ κ key} {r : ρ} (h : t.insert? r = some u) :
    t.find? (key r) = none ∧ u.rows = t.rows ++ [r] := by
  unfold insert? at h
  split at h
  · exact absurd h (by simp)
  · rename_i hk
    rw [Option.some.injEq] at h
    subst h
    exact ⟨find?_eq_none_iff.mpr hk, rfl⟩

theorem exists_insert? {t : Table ρ κ key} {r : ρ} (h : t.find? (key r) = none) :
    ∃ u, t.insert? r = some u := by
  unfold insert?
  rw [dif_neg (find?_eq_none_iff.mp h)]
  exact ⟨_, rfl⟩

theorem find?_of_rows_append {t u : Table ρ κ key} {r : ρ} (h : u.rows = t.rows ++ [r]) (k : κ) :
    u.find? k = if key r = k then some r else t.find? k := by
  by_cases hk : key r = k
  · rw [if_pos hk]
    exact find?_eq_some_iff.mpr ⟨by rw [h]; simp, hk⟩
  · rw [if_neg hk]
    unfold find?
    rw [h, List.find?_append]
    simp [hk]

end Find

end Table
end VariantOne
