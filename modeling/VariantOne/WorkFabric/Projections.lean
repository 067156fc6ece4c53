import Mathlib.Data.List.Sort
import VariantOne.WorkFabric.Tables

/-!
# Projections

A projection is a named state computed from the event log by a reducer.
`reduce_projection` takes the next batch of events after the stored cursor, runs
the reducer over it and stores state and cursor together, all in one
transaction.  The reducer is the caller's: it may raise, and it may return
something that is no mapping.

`reduceProjection_eq_ok` is what everything else uses: a reduction that returns has read a batch after
the stored cursor, its state is the fold of the reducer over the events of that batch, and its cursor is
the sequence of the last of them.  One that raises leaves state and cursor as they were.
-/

namespace VariantOne
namespace WorkFabric

/-- A caller's reducer. -/
abbrev Reducer := PyDict → WorkEvent → Except Raised PyValue

/-- `min(5000, max(1, int(batch_size)))` -/
def batchLimit (batchSize : Int) : Nat := (min 5000 (max 1 batchSize)).toNat

/-- `SELECT * FROM work_event WHERE sequence>? ORDER BY sequence LIMIT ?` -/
def eventsAfter (t : Tables) (cursor take : Nat) : List WorkEvent :=
  ((t.events.rows.filter fun e => cursor < e.sequence).insertionSort
    fun a b => a.sequence ≤ b.sequence).take take

/-- One event of a batch. -/
def reduceEvent (reducer : Reducer) (state : PyDict) (event : WorkEvent) :
    Except Raised PyDict :=
  match reducer state event with
  | .error e => .error e
  | .ok (.dict reduced) => .ok reduced
  | .ok _ => .error ⟨.typeError, "projection reducer must return a mapping"⟩

/-- The loop over a batch: cursor and state move together. -/
def reduceBatch (reducer : Reducer) : List WorkEvent → Nat → PyDict →
    Except Raised (Nat × PyDict)
  | [], cursor, state => .ok (cursor, state)
  | event :: events, _, state =>
      match reduceEvent reducer state event with
      | .error e => .error e
      | .ok reduced => reduceBatch reducer events event.sequence reduced

/-- `INSERT … ON CONFLICT(projection_name) DO UPDATE` -/
def upsertProjection (row : ProjectionRow) : Work Unit := do
  let t ← Txn.read
  match t.projections.insert? row with
  | some projections => Txn.modify fun t => { t with projections := projections }
  | none => Txn.modify fun t =>
      { t with
        projections := t.projections.updateWhere (fun r => r.name.val == row.name.val)
          (fun r => { row with name := r.name }) fun _ => rfl }

/-- `reduce_projection` -/
def reduceProjection (H : Host) (env : Env) (name : String) (reducer : Reducer)
    (initial : Option PyDict) (batchSize : Int) : Work ProjectionSnapshot := do
  let cleanName ← Txn.lift (text name "projection name" true 240)
  let t ← Txn.read
  let stored := t.projections.find? cleanName.val
  let cursor := (stored.map (·.lastSequence)).getD 0
  let state := (stored.map fun row => entriesToPy row.state).getD (initial.getD [])
  let reduced ← Txn.lift
    (reduceBatch reducer (eventsAfter t cursor (batchLimit batchSize)) cursor state)
  let document ← Txn.lift (inlineJson H reduced.2)
  upsertProjection ⟨cleanName, reduced.1, document, env.time⟩
  pure ⟨cleanName, reduced.1, reduced.2, env.time⟩

/-- `projection` -/
def projection (name : String) : Work ProjectionSnapshot := do
  let cleanName ← Txn.lift (text name "projection name" true 240)
  let t ← Txn.read
  match t.projections.find? cleanName.val with
  | none => pure ⟨cleanName, 0, [], 0⟩
  | some row => pure ⟨cleanName, row.lastSequence, entriesToPy row.state, row.updatedAt⟩

/-! ## What the operations can do -/

/-- Everything but the projections is as it was. -/
structure OnlyProjections (t t' : Tables) : Prop where
  events : t'.events = t.events
  eventSequence : t'.eventSequence = t.eventSequence
  outbox : t'.outbox = t.outbox
  jobs : t'.jobs = t.jobs

/-- Storing a projection stores it under its name and under no other. -/
theorem upsertProjection_eq_ok {row : ProjectionRow} {t t' : Tables} {u : Unit}
    (h : (upsertProjection row).run t = .ok (u, t')) :
    OnlyProjections t t' ∧ ∀ name : String,
      t'.projections.find? name =
        if row.name.val = name then some row else t.projections.find? name := by
  unfold upsertProjection at h
  rw [Txn.run_read_bind] at h
  cases hi : t.projections.insert? row with
  | some projections =>
      rw [hi] at h
      obtain rfl : { t with projections := projections } = t' := by simpa using h
      exact ⟨⟨rfl, rfl, rfl, rfl⟩, Table.find?_of_rows_append (Table.insert?_eq_some hi).2⟩
  | none =>
      rw [hi] at h
      obtain ⟨-, rfl⟩ := Prod.mk.inj (Except.ok.inj h)
      refine ⟨⟨rfl, rfl, rfl, rfl⟩, fun name => ?_⟩
      dsimp only
      rw [Table.find?_updateWhere]
      by_cases hname : row.name.val = name
      · cases hf : t.projections.find? name with
        | none =>
            have hnone : t.projections.find? row.name.val = none := by rw [hname, hf]
            obtain ⟨projections, hins⟩ := Table.exists_insert? (t := t.projections) (r := row) hnone
            exact absurd (hi.symm.trans hins) (by simp)
        | some r =>
            have hkey : r.name.val = name := (Table.find?_eq_some_iff.mp hf).2
            have hr : r.name = row.name := Text.ext_val (hkey.trans hname.symm)
            rw [if_pos hname, Option.map_some, if_pos (by simp [hr]), hr]
      · rw [if_neg hname]
        cases hf : t.projections.find? name with
        | none => rfl
        | some r =>
            have hkey : r.name.val = name := (Table.find?_eq_some_iff.mp hf).2
            have hr : r.name.val ≠ row.name.val := fun hk => hname (hk.symm.trans hkey)
            rw [Option.map_some, if_neg (by simpa using hr)]

/-- **What a reduction does.**  It folds the next batch into what was stored, and
stores state and cursor together. -/
theorem reduceProjection_eq_ok {H : Host} {env : Env} {name : String} {reducer : Reducer}
    {initial : Option PyDict} {batchSize : Int} {t t' : Tables} {snapshot : ProjectionSnapshot}
    (h : (reduceProjection H env name reducer initial batchSize).run t = .ok (snapshot, t')) :
    ∃ clean cursor state document, text name "projection name" true 240 = .ok clean ∧
      reduceBatch reducer
        (eventsAfter t (((t.projections.find? clean.val).map (·.lastSequence)).getD 0)
          (batchLimit batchSize))
        (((t.projections.find? clean.val).map (·.lastSequence)).getD 0)
        (((t.projections.find? clean.val).map fun row => entriesToPy row.state).getD
          (initial.getD [])) = .ok (cursor, state) ∧
      inlineJson H state = .ok document ∧ OnlyProjections t t' ∧
      (∀ k : String, t'.projections.find? k =
        if clean.val = k then some ⟨clean, cursor, document, env.time⟩
        else t.projections.find? k) ∧
      snapshot = ⟨clean, cursor, state, env.time⟩ := by
  unfold reduceProjection at h
  obtain ⟨clean, hclean, h⟩ := Txn.run_lift_bind_eq_ok.mp h
  rw [Txn.run_read_bind] at h
  obtain ⟨⟨cursor, state⟩, hbatch, h⟩ := Txn.run_lift_bind_eq_ok.mp h
  obtain ⟨document, hdoc, h⟩ := Txn.run_lift_bind_eq_ok.mp h
  obtain ⟨u, t₁, hstore, h⟩ := Txn.run_bind_eq_ok.mp h
  obtain ⟨rfl, rfl⟩ := Txn.run_pure_eq_ok.mp h
  obtain ⟨honly, hfind⟩ := upsertProjection_eq_ok hstore
  exact ⟨clean, cursor, state, document, hclean, hbatch, hdoc, honly, hfind, rfl⟩

/-- Reading a projection changes nothing. -/
theorem projection_same {name : String} {t t' : Tables} {snapshot : ProjectionSnapshot}
    (h : (projection name).run t = .ok (snapshot, t')) : t' = t := by
  unfold projection at h
  obtain ⟨clean, -, h⟩ := Txn.run_lift_bind_eq_ok.mp h
  rw [Txn.run_read_bind] at h
  cases hf : t.projections.find? clean.val with
  | none =>
      rw [hf] at h
      exact (Txn.run_pure_eq_ok.mp h).2.symm
  | some row =>
      rw [hf] at h
      exact (Txn.run_pure_eq_ok.mp h).2.symm

end WorkFabric
end VariantOne
