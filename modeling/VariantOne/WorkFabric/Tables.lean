import VariantOne.Lib.Table
import VariantOne.Lib.Txn
import VariantOne.WorkFabric.Models

/-!
# The tables of the work database

One state holds the tables the repository writes: the event log, its outbox, the
jobs and the projections.  The log's `sequence` is an `AUTOINCREMENT` column, so
the counter behind it is part of the state.  A JSON column holds the document
that is read back from its text.

Everything a transaction takes from outside is in `Env`: the clock readings, the
random identifiers, and an exception injected before the commit.

A statement is a function on the tables or a body that can raise; `unitOfWork` is the boundary around a
body.  The injected exception is how a failing commit is modelled: it raises after everything was written,
and the boundary takes it all back.
-/

namespace VariantOne
namespace WorkFabric

/-- A row of `work_outbox`. -/
structure OutboxRow where
  outboxId : String
  eventId : String
  eventSequence : Nat
  status : OutboxStatus
  attempts : Nat
  availableAt : ℚ
  leaseOwner : String
  leaseEpoch : Nat
  leaseExpiresAt : Option ℚ
  lastError : String
  createdAt : ℚ
  deliveredAt : Option ℚ

/-- A row of `work_projection_state`. -/
structure ProjectionRow where
  name : Text true 240
  lastSequence : Nat
  state : List (String × Json)
  updatedAt : ℚ

/-- The database. -/
structure Tables where
  events : Table WorkEvent String (·.eventId)
  /-- The counter of the `AUTOINCREMENT` column. -/
  eventSequence : Nat
  outbox : Table OutboxRow String (·.outboxId)
  jobs : Table JobRow String (·.jobId.val)
  projections : Table ProjectionRow String (·.name.val)

/-- The database as `_initialize` creates it. -/
def Tables.initial : Tables := ⟨.empty, 0, .empty, .empty, .empty⟩

/-- What one transaction takes from outside. -/
structure Env where
  /-- `time.time()` when the operation starts. -/
  time : ℚ
  /-- `time.time()` when `finish_job` runs inside `commit_result`. -/
  finishTime : ℚ
  /-- `time.time()` when the event of a given sequence is inserted. -/
  eventTime : Nat → ℚ
  /-- `uuid.uuid4()` for the identifier of a given kind and sequence. -/
  uuid : String → Nat → BitVec 128
  /-- The exception raised at the fault point `work.before_commit`. -/
  fault : Option Raised

/-- A transaction body of the repository. -/
abbrev Work (α : Type) := Txn Tables Raised α

namespace Tables

/-- The row of a job. -/
def job? (t : Tables) (jobId : String) : Option JobRow := t.jobs.find? jobId

/-- The events of one aggregate, oldest first. -/
def aggregateEvents (t : Tables) (kind aggregate : String) : List WorkEvent :=
  t.events.rows.filter fun e => e.aggregateKind.val == kind && e.aggregateId.val == aggregate

/-- `SELECT COALESCE(MAX(aggregate_version), 0)` -/
def currentVersion (t : Tables) (kind aggregate : String) : Nat :=
  ((t.aggregateEvents kind aggregate).map (·.aggregateVersion)).foldr max 0

end Tables

/-! ## Statements -/

/-- A `UNIQUE` or `PRIMARY KEY` constraint that failed. -/
def uniqueFailed (column : String) : Raised :=
  ⟨.integrityError, s!"UNIQUE constraint failed: {column}"⟩

/-- `INSERT INTO work_event` -/
def insertEventRow (event : WorkEvent) : Work Unit := do
  let t ← Txn.read
  match t.events.insert? event with
  | none => Txn.raise (uniqueFailed "work_event.event_id")
  | some events => Txn.modify fun t => { t with events := events, eventSequence := event.sequence }

/-- `INSERT INTO work_outbox` -/
def insertOutboxRow (row : OutboxRow) : Work Unit := do
  let t ← Txn.read
  match t.outbox.insert? row with
  | none => Txn.raise (uniqueFailed "work_outbox.outbox_id")
  | some outbox => Txn.modify fun t => { t with outbox := outbox }

/-- `INSERT INTO work_job` -/
def insertJobRow (row : JobRow) : Work Unit := do
  let t ← Txn.read
  match t.jobs.insert? row with
  | none => Txn.raise (uniqueFailed "work_job.job_id")
  | some jobs => Txn.modify fun t => { t with jobs := jobs }

/-- `UPDATE work_job SET change WHERE job_id=? AND where_`; the count of rows
changed. -/
def updateJobRows (jobId : String) (cond : JobRow → Bool) (change : JobRow → JobRow)
    (hchange : ∀ r, (change r).jobId.val = r.jobId.val) : Work Nat := do
  let t ← Txn.read
  Txn.modify fun t =>
    { t with jobs := t.jobs.updateWhere (fun r => r.jobId.val == jobId && cond r) change hchange }
  pure (t.jobs.rows.filter fun r => r.jobId.val == jobId && cond r).length

/-- `UPDATE work_outbox SET change WHERE cond`; the count of rows changed. -/
def updateOutboxRows (cond : OutboxRow → Bool) (change : OutboxRow → OutboxRow)
    (hchange : ∀ r, (change r).outboxId = r.outboxId) : Work Nat := do
  let t ← Txn.read
  Txn.modify fun t => { t with outbox := t.outbox.updateWhere cond change hchange }
  pure (t.outbox.rows.filter cond).length

theorem insertEventRow_eq_ok {event : WorkEvent} {t t' : Tables} {u : Unit}
    (h : (insertEventRow event).run t = .ok (u, t')) :
    t.events.find? event.eventId = none ∧ t'.events.rows = t.events.rows ++ [event] ∧
      t'.eventSequence = event.sequence ∧ t'.outbox = t.outbox ∧ t'.jobs = t.jobs ∧
      t'.projections = t.projections := by
  obtain ⟨t₀, t₁, hread, h⟩ := Txn.run_bind_eq_ok.mp h
  obtain ⟨rfl, rfl⟩ : t = t₀ ∧ t = t₁ := by simpa using hread
  cases hi : t.events.insert? event with
  | none => simp [hi] at h
  | some events =>
      obtain ⟨hnew, hrows⟩ := Table.insert?_eq_some hi
      obtain rfl : { t with events := events, eventSequence := event.sequence } = t' := by
        simpa [hi] using h
      exact ⟨hnew, hrows, rfl, rfl, rfl, rfl⟩

theorem insertOutboxRow_eq_ok {row : OutboxRow} {t t' : Tables} {u : Unit}
    (h : (insertOutboxRow row).run t = .ok (u, t')) :
    t.outbox.find? row.outboxId = none ∧ t'.outbox.rows = t.outbox.rows ++ [row] ∧
      t'.events = t.events ∧ t'.eventSequence = t.eventSequence ∧ t'.jobs = t.jobs ∧
      t'.projections = t.projections := by
  obtain ⟨t₀, t₁, hread, h⟩ := Txn.run_bind_eq_ok.mp h
  obtain ⟨rfl, rfl⟩ : t = t₀ ∧ t = t₁ := by simpa using hread
  cases hi : t.outbox.insert? row with
  | none => simp [hi] at h
  | some outbox =>
      obtain ⟨hnew, hrows⟩ := Table.insert?_eq_some hi
      obtain rfl : { t with outbox := outbox } = t' := by simpa [hi] using h
      exact ⟨hnew, hrows, rfl, rfl, rfl, rfl⟩

theorem insertJobRow_eq_ok {row : JobRow} {t t' : Tables} {u : Unit}
    (h : (insertJobRow row).run t = .ok (u, t')) :
    t.job? row.jobId.val = none ∧ ∃ jobs : Table JobRow String (·.jobId.val),
      jobs.rows = t.jobs.rows ++ [row] ∧ t' = { t with jobs := jobs } := by
  obtain ⟨t₀, t₁, hread, h⟩ := Txn.run_bind_eq_ok.mp h
  obtain ⟨rfl, rfl⟩ : t = t₀ ∧ t = t₁ := by simpa using hread
  cases hi : t.jobs.insert? row with
  | none => simp [hi] at h
  | some jobs =>
      obtain ⟨hnew, hrows⟩ := Table.insert?_eq_some hi
      have ht : { t with jobs := jobs } = t' := by simpa [hi] using h
      exact ⟨hnew, jobs, hrows, ht.symm⟩

theorem run_updateJobRows (jobId : String) (cond : JobRow → Bool) (change : JobRow → JobRow)
    (hchange : ∀ r, (change r).jobId.val = r.jobId.val) (t : Tables) :
    (updateJobRows jobId cond change hchange).run t =
      .ok ((t.jobs.rows.filter fun r => r.jobId.val == jobId && cond r).length,
        { t with
          jobs := t.jobs.updateWhere (fun r => r.jobId.val == jobId && cond r) change hchange }) :=
  rfl

theorem run_updateOutboxRows (cond : OutboxRow → Bool) (change : OutboxRow → OutboxRow)
    (hchange : ∀ r, (change r).outboxId = r.outboxId) (t : Tables) :
    (updateOutboxRows cond change hchange).run t =
      .ok ((t.outbox.rows.filter cond).length,
        { t with outbox := t.outbox.updateWhere cond change hchange }) :=
  rfl

end WorkFabric
end VariantOne
