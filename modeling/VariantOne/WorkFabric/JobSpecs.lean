import VariantOne.WorkFabric.Jobs

/-!
# What each job operation can do

One lemma for each operation, from "it returned" to everything it can have done:
which row it read, which guards that row passed, and how the tables differ.
`JobCommit t t' row row' event` is the common shape: `row'` took the place of
`row`, with its revision advanced, the event of that revision was logged, and the
job's cursor points at it.

Later modules use these lemmas and never unfold an operation.

`JobCommit` fixes what no operation changes (the request, the identity, the other rows), so a lemma about
one operation only has to name the new control part.  Recovery is a list of such commits, one for each
expired row, in one transaction.
-/

namespace VariantOne
namespace WorkFabric

variable {H : Host} {env : Env} {t t' : Tables} {β : Type}

/-! ## Reading and checking -/

theorem jobId_of_job? {jobId : String} {row : JobRow} (h : t.job? jobId = some row) :
    row.jobId.val = jobId :=
  (Table.find?_eq_some_iff.mp h).2

theorem jobRow_eq_ok {jobId : String} {row : JobRow} :
    (jobRow jobId).run t = .ok (row, t') ↔ t.job? jobId = some row ∧ t = t' := by
  unfold jobRow
  rw [Txn.run_read_bind]
  cases t.job? jobId with
  | none => simp
  | some r => simp

theorem jobRow_bind_eq_ok {jobId : String} {f : JobRow → Work β} {b : β} :
    (jobRow jobId >>= f).run t = .ok (b, t') ↔
      ∃ row, t.job? jobId = some row ∧ (f row).run t = .ok (b, t') := by
  rw [Txn.run_bind_eq_ok]
  constructor
  · rintro ⟨row, t₁, hread, hf⟩
    obtain ⟨hrow, rfl⟩ := jobRow_eq_ok.mp hread
    exact ⟨row, hrow, hf⟩
  · rintro ⟨row, hrow, hf⟩
    exact ⟨row, t, jobRow_eq_ok.mpr ⟨hrow, rfl⟩, hf⟩

theorem returnJob_eq_ok {jobId : String} {record : JobRecord}
    (h : (returnJob jobId).run t = .ok (record, t')) :
    ∃ row, t.job? jobId = some row ∧ record = row.record ∧ t' = t := by
  unfold returnJob at h
  obtain ⟨row, hrow, h⟩ := jobRow_bind_eq_ok.mp h
  obtain ⟨rfl, rfl⟩ := Txn.run_pure_eq_ok.mp h
  exact ⟨row, hrow, rfl, rfl⟩

theorem expectLease_eq_ok {row : JobRow} {owner : String} {epoch : Nat} {now : ℚ}
    {allowed : List JobStatus} {u : Unit} :
    (expectLease row owner epoch now allowed).run t = .ok (u, t') ↔
      LeaseHeld row owner epoch now allowed ∧ t = t' := by
  unfold expectLease LeaseHeld
  rw [Txn.run_ensure_bind_eq_ok, Txn.run_ensure_bind_eq_ok, Txn.run_ensure_eq_ok]
  tauto

theorem expectLease_bind_eq_ok {row : JobRow} {owner : String} {epoch : Nat} {now : ℚ}
    {allowed : List JobStatus} {f : Unit → Work β} {b : β} :
    (expectLease row owner epoch now allowed >>= f).run t = .ok (b, t') ↔
      LeaseHeld row owner epoch now allowed ∧ (f ()).run t = .ok (b, t') := by
  rw [Txn.run_bind_eq_ok]
  constructor
  · rintro ⟨u, t₁, hcheck, hf⟩
    obtain ⟨hl, rfl⟩ := expectLease_eq_ok.mp hcheck
    exact ⟨hl, hf⟩
  · rintro ⟨hl, hf⟩
    exact ⟨(), t, expectLease_eq_ok.mpr ⟨hl, rfl⟩, hf⟩

theorem expectRevision_bind_eq_ok {row : JobRow} {expected : Option Int} {f : Unit → Work β}
    {b : β} :
    (expectRevision row expected >>= f).run t = .ok (b, t') ↔
      (∀ v ∈ expected, (row.revision : Int) = v) ∧ (f ()).run t = .ok (b, t') :=
  Txn.run_ensure_bind_eq_ok

theorem LeaseHeld.mono {row : JobRow} {owner : String} {epoch : Nat} {now : ℚ}
    {allowed allowed' : List JobStatus} (h : LeaseHeld row owner epoch now allowed)
    (hsub : ∀ s ∈ allowed, s ∈ allowed') : LeaseHeld row owner epoch now allowed' :=
  ⟨hsub _ h.1, h.2⟩

/-! ## One row changes -/

/-- `row'` took the place of `row`. -/
structure JobChanged (t t' : Tables) (row row' : JobRow) : Prop where
  found : t.job? row.jobId.val = some row
  sameId : row'.jobId = row.jobId
  rows : t'.jobs.rows = t.jobs.rows.map fun r => if r.jobId.val = row.jobId.val then row' else r

theorem job?_of_rows {row row' : JobRow} (hid : row'.jobId = row.jobId)
    (hfound : t.job? row.jobId.val = some row)
    (hrows : t'.jobs.rows =
      t.jobs.rows.map fun r => if r.jobId.val = row.jobId.val then row' else r) (j : String) :
    t'.job? j = if row.jobId.val = j then some row' else t.job? j := by
  by_cases hj : row.jobId.val = j
  · rw [if_pos hj]
    refine Table.find?_eq_some_iff.mpr ⟨?_, by rw [hid]; exact hj⟩
    rw [hrows]
    exact List.mem_map.mpr ⟨row, Table.mem_of_find? hfound, by simp⟩
  · rw [if_neg hj]
    unfold Tables.job? Table.find?
    rw [hrows, List.find?_map]
    have hp : ∀ r : JobRow,
        decide ((if r.jobId.val = row.jobId.val then row' else r).jobId.val = j) =
          decide (r.jobId.val = j) := by
      intro r
      by_cases hr : r.jobId.val = row.jobId.val
      · rw [if_pos hr, hid, hr]
      · rw [if_neg hr]
    have hcomp : ((fun r : JobRow => decide (r.jobId.val = j)) ∘ fun r : JobRow =>
        if r.jobId.val = row.jobId.val then row' else r) =
          fun r : JobRow => decide (r.jobId.val = j) := funext hp
    rw [hcomp]
    cases hf : t.jobs.rows.find? (fun r => decide (r.jobId.val = j)) with
    | none => rfl
    | some r =>
        have hr : r.jobId.val = j := by simpa using List.find?_some hf
        rw [Option.map_some, if_neg fun h => hj (h.symm.trans hr)]

theorem JobChanged.job? {row row' : JobRow} (h : JobChanged t t' row row') (j : String) :
    t'.job? j = if row.jobId.val = j then some row' else t.job? j :=
  job?_of_rows h.sameId h.found h.rows j

theorem JobChanged.trans {t₁ : Tables} {row row₁ row' : JobRow} (h : JobChanged t t₁ row row₁)
    (h' : JobChanged t₁ t' row₁ row') : JobChanged t t' row row' where
  found := h.found
  sameId := h'.sameId.trans h.sameId
  rows := by
    rw [h'.rows, h.rows, List.map_map]
    refine List.map_congr_left fun r _ => ?_
    rw [Function.comp_apply, h.sameId]
    by_cases hr : r.jobId.val = row.jobId.val
    · rw [if_pos hr, if_pos (by rw [h.sameId]), if_pos hr]
    · rw [if_neg hr, if_neg hr]

/-- An update by key changes the row the key finds. -/
theorem changed_of_update {jobId : String} {row : JobRow} {cond : JobRow → Bool}
    {change : JobRow → JobRow} (hchange : ∀ r, (change r).jobId = r.jobId)
    (hrow : t.job? jobId = some row) (hcond : cond row = true)
    (hrows : t'.jobs.rows = t.jobs.rows.map fun r =>
      if (r.jobId.val == jobId && cond r) = true then change r else r) :
    JobChanged t t' row (change row) := by
  have hid : row.jobId.val = jobId := jobId_of_job? hrow
  refine ⟨by rw [hid]; exact hrow, hchange row, ?_⟩
  rw [hrows]
  refine List.map_congr_left fun r hr => ?_
  by_cases hk : r.jobId.val = jobId
  · have hrr : r = row := Table.eq_of_mem hr (Table.mem_of_find? hrow) (by rw [hk, hid])
    subst hrr
    rw [if_pos rfl, if_pos (by simp [hid, hcond])]
  · rw [if_neg (by simp [hk]), if_neg (by rw [hid]; exact hk)]

/-- Everything but the jobs is as it was. -/
structure OnlyJobs (t t' : Tables) : Prop where
  events : t'.events = t.events
  eventSequence : t'.eventSequence = t.eventSequence
  outbox : t'.outbox = t.outbox
  projections : t'.projections = t.projections

/-- Logging does not depend on the jobs. -/
theorem Logged.of_only {t₁ : Tables} {event : WorkEvent} (h : Logged t₁ t' event)
    (honly : OnlyJobs t t₁) : Logged t t' event := by
  obtain ⟨outboxId, now, hfresh, hout⟩ := h.outbox
  exact
    { newId := by rw [← honly.events]; exact h.newId
      events := by rw [h.events, honly.events]
      sequence := by rw [h.sequence, honly.eventSequence]
      counter := by rw [h.counter, honly.eventSequence]
      outbox := ⟨outboxId, now, by rw [← honly.outbox]; exact hfresh, by rw [hout, honly.outbox]⟩
      projections := by rw [h.projections, honly.projections] }

theorem updateJobRows_eq_ok {jobId : String} {cond : JobRow → Bool} {change : JobRow → JobRow}
    {hchange : ∀ r, (change r).jobId.val = r.jobId.val} {n : Nat} {row : JobRow}
    (h : (updateJobRows jobId cond change hchange).run t = .ok (n, t'))
    (hrow : t.job? jobId = some row) (hcond : cond row = true)
    (hid : ∀ r, (change r).jobId = r.jobId) :
    JobChanged t t' row (change row) ∧ OnlyJobs t t' := by
  rw [run_updateJobRows, Except.ok.injEq, Prod.mk.injEq] at h
  obtain ⟨-, rfl⟩ := h
  exact ⟨changed_of_update hid hrow hcond rfl, rfl, rfl, rfl, rfl⟩

theorem casJob_eq_ok {jobId lost : String} {cond : JobRow → Bool} {change : JobRow → JobRow}
    {hchange : ∀ r, (change r).jobId.val = r.jobId.val} {u : Unit} {row : JobRow}
    (h : (casJob jobId cond change hchange lost).run t = .ok (u, t'))
    (hrow : t.job? jobId = some row) (hcond : cond row = true)
    (hid : ∀ r, (change r).jobId = r.jobId) :
    JobChanged t t' row (change row) ∧ OnlyJobs t t' := by
  unfold casJob at h
  obtain ⟨n, t₁, hu, h⟩ := Txn.run_bind_eq_ok.mp h
  obtain ⟨-, rfl⟩ := Txn.run_ensure_eq_ok.mp h
  exact updateJobRows_eq_ok hu hrow hcond hid

/-! ## One row changes and is published -/

/-- An event of a job: the version it carries is the row's revision and its
payload names the row's state. -/
structure EventOfJob (row : JobRow) (event : WorkEvent) : Prop where
  kind : event.aggregateKind.val = "job"
  aggregate : event.aggregateId = row.jobId
  version : event.aggregateVersion = row.revision
  status : Dict.get? event.payload "status" = some (.str row.status.text)

/-- **The common shape of a job operation.** -/
structure JobCommit (t t' : Tables) (row row' : JobRow) (event : WorkEvent) : Prop where
  changed : JobChanged t t' row (cursorChange event.sequence row')
  logged : Logged t t' event
  announced : EventOfJob row' event
  current : event.aggregateVersion = t.currentVersion "job" row.jobId.val + 1

theorem jobPayload_wf (row : JobRow) (extra : PyDict) : Dict.WF (jobPayload row extra) := by
  refine Dict.WF.merge ?_ extra
  simp [Dict.WF]

theorem status_jobPayload {row : JobRow} {extra : PyDict} (h : Dict.get? extra "status" = none) :
    Dict.get? (jobPayload row extra) "status" = some (.str row.status.text) := by
  unfold jobPayload
  rw [Dict.get?_merge_of_none h]
  simp [Dict.get?_cons]

theorem cleanEvent_jobEventArgs {row : JobRow} {eventType : String} {actor : Option WorkActor}
    {payload : PyDict} {correlationId idempotencyKey : String} {c : CleanEvent}
    (h : cleanEvent (jobEventArgs row eventType actor payload correlationId idempotencyKey) =
      .ok c) :
    c.kind.val = "job" ∧ c.aggregate = row.jobId ∧ c.payload = jobPayload row payload ∧
      c.idem.val = strip idempotencyKey := by
  obtain ⟨hkind, hagg, -, hidem, -, -, hpay⟩ := cleanEvent_eq_ok h
  have hk : c.kind.val = strip "job" := val_of_text hkind
  have ha : text row.jobId.val "aggregate_id" true 512 = .ok c.aggregate := hagg
  rw [text_val, Except.ok.injEq] at ha
  exact ⟨by rw [hk]; decide, ha.symm, hpay, val_of_text hidem⟩

/-- Publishing a row either logs its event or, for a key that is already in the
log, answers from the log. -/
theorem jobEvent_eq_ok {row : JobRow} {eventType : String} {actor : Option WorkActor}
    {payload : PyDict} {correlationId idempotencyKey : String} {event : WorkEvent}
    (hextra : Dict.get? payload "status" = none) (hrow : t.job? row.jobId.val = some row)
    (h : (jobEvent H env row eventType actor payload correlationId idempotencyKey).run t =
      .ok (event, t')) :
    JobChanged t t' row (cursorChange event.sequence row) ∧
      ((strip idempotencyKey ≠ "" ∧ OnlyJobs t t' ∧ event ∈ t.events.rows ∧
          event.aggregateKind.val = "job" ∧ event.aggregateId = row.jobId) ∨
        (Logged t t' event ∧ EventOfJob row event ∧
          event.aggregateVersion = t.currentVersion "job" row.jobId.val + 1)) := by
  unfold jobEvent at h
  obtain ⟨event', t₁, hins, h⟩ := Txn.run_bind_eq_ok.mp h
  obtain ⟨n, t₂, hcur, h⟩ := Txn.run_bind_eq_ok.mp h
  obtain ⟨rfl, rfl⟩ := Txn.run_pure_eq_ok.mp h
  obtain ⟨c, hc, hcases⟩ := insertEvent_ok hins
  obtain ⟨hkind, hagg, hpay, hidem⟩ := cleanEvent_jobEventArgs hc
  rcases hcases with ⟨hprior, rfl, candidate, -, -⟩ | ⟨-, happ, hof⟩
  · obtain ⟨hchanged, honly⟩ := updateJobRows_eq_ok hcur hrow rfl fun _ => rfl
    refine ⟨hchanged, Or.inl ⟨?_, honly, ?_⟩⟩
    · intro hempty
      rw [priorEvent, if_pos (hidem.trans hempty)] at hprior
      exact absurd hprior (by simp)
    · unfold priorEvent at hprior
      split at hprior
      · exact absurd hprior (by simp)
      · have hmem := List.mem_of_find?_eq_some hprior
        have hp := List.find?_some hprior
        simp only [Bool.and_eq_true, beq_iff_eq] at hp
        exact ⟨hmem, hp.1.1.trans hkind, Text.ext_val (hp.1.2.trans (by rw [hagg]))⟩
  · have hrow₁ : t₁.job? row.jobId.val = some row := by
      unfold Tables.job?
      rw [happ.jobs]
      exact hrow
    obtain ⟨hchanged, honly⟩ := updateJobRows_eq_ok hcur hrow₁ rfl fun _ => rfl
    have hchanged' : JobChanged t t₂ row (cursorChange event'.sequence row) :=
      ⟨hrow, rfl, by rw [hchanged.rows, happ.jobs]⟩
    refine ⟨hchanged', Or.inr ⟨?_, ?_, ?_⟩⟩
    · obtain ⟨outboxId, now, hfresh, hout⟩ := happ.outbox
      exact
        { newId := happ.newId
          events := by rw [honly.events, happ.events]
          sequence := happ.sequence
          counter := by rw [honly.eventSequence, happ.counter]
          outbox := ⟨outboxId, now, hfresh, by rw [honly.outbox, hout]⟩
          projections := by rw [honly.projections, happ.projections] }
    · have hver : ((row.revision : Nat) : Int) = (event'.aggregateVersion : Int) :=
        hof.requested _ rfl
      exact
        { kind := by rw [hof.kind, hkind]
          aggregate := by rw [hof.aggregate, hagg]
          version := by omega
          status := by
            have hp := hof.payload
            rw [hpay] at hp
            exact get?_inlineJson_str (jobPayload_wf row payload) hp (status_jobPayload hextra) }
    · rw [hof.version, hkind, hagg]

/-- Publishing the row an update has just written. -/
theorem publish_eq_ok {t₁ : Tables} {jobId eventType : String} {change : JobRow → JobRow}
    {actor : Option WorkActor} {payload : JobRow → PyDict} {row : JobRow} {record : JobRecord}
    (h : (publishJob H env jobId eventType actor payload).run t₁ = .ok (record, t'))
    (hrow : t.job? jobId = some row)
    (hupdate : JobChanged t t₁ row (change row) ∧ OnlyJobs t t₁)
    (hid : ∀ r, (change r).jobId = r.jobId)
    (hextra : ∀ r, Dict.get? (payload r) "status" = none) :
    ∃ event, JobCommit t t' row (change row) event ∧
      record = (cursorChange event.sequence (change row)).record := by
  obtain ⟨hchanged, honly⟩ := hupdate
  have hcid : (change row).jobId.val = jobId := by rw [hid, jobId_of_job? hrow]
  unfold publishJob at h
  obtain ⟨row₁, hrow₁, h⟩ := jobRow_bind_eq_ok.mp h
  have hnew : t₁.job? jobId = some (change row) := by
    rw [hchanged.job?, if_pos (jobId_of_job? hrow)]
  obtain rfl : change row = row₁ := Option.some.inj (hnew.symm.trans hrow₁)
  obtain ⟨event, t₂, hev, h⟩ := Txn.run_bind_eq_ok.mp h
  obtain ⟨row₂, hrow₂, hrecord, rfl⟩ := returnJob_eq_ok h
  obtain ⟨hcur, hcases⟩ := jobEvent_eq_ok (hextra _) (by rw [hcid]; exact hnew) hev
  rcases hcases with ⟨hne, -⟩ | ⟨hlog, hofjob, hver⟩
  · exact absurd rfl hne
  have hfinal : t'.job? jobId = some (cursorChange event.sequence (change row)) := by
    rw [hcur.job?, if_pos hcid]
  refine ⟨event, ⟨hchanged.trans hcur, hlog.of_only honly, hofjob, ?_⟩, ?_⟩
  · rw [hver, hid]
    unfold Tables.currentVersion Tables.aggregateEvents
    rw [honly.events]
  · rw [hrecord, ← Option.some.inj (hfinal.symm.trans hrow₂)]

/-- Compare-and-set, then publish. -/
theorem commit_eq_ok {jobId lost eventType : String} {cond : JobRow → Bool}
    {change : JobRow → JobRow} {hchange : ∀ r, (change r).jobId.val = r.jobId.val}
    {actor : Option WorkActor} {payload : JobRow → PyDict} {row : JobRow} {record : JobRecord}
    (h : (casJob jobId cond change hchange lost >>= fun _ =>
      publishJob H env jobId eventType actor payload).run t = .ok (record, t'))
    (hrow : t.job? jobId = some row) (hcond : cond row = true)
    (hid : ∀ r, (change r).jobId = r.jobId)
    (hextra : ∀ r, Dict.get? (payload r) "status" = none) :
    ∃ event, JobCommit t t' row (change row) event ∧
      record = (cursorChange event.sequence (change row)).record := by
  obtain ⟨u, t₁, hcas, h⟩ := Txn.run_bind_eq_ok.mp h
  exact publish_eq_ok h hrow (casJob_eq_ok hcas hrow hcond hid) hid hextra

/-! ## The operations -/

theorem mem_of_nextLeasable {now : ℚ} {kinds excluded : List String} {row : JobRow}
    (h : nextLeasable t now kinds excluded = some row) :
    row ∈ t.jobs.rows ∧ leasable now kinds excluded row = true := by
  unfold nextLeasable at h
  have hmem := List.mem_of_mem_head? (by rw [h]; exact rfl)
  exact List.mem_filter.mp ((List.perm_insertionSort _ _).mem_iff.mp hmem)

/-- A lease goes to a queued job that is not being cancelled, is due and has an
attempt left or continues earlier work. -/
theorem leaseNextJob_eq_ok {leaseOwner : String} {kinds excluded : List String} {ttl : ℚ}
    {now : Option ℚ} {result : Option JobRecord}
    (h : (leaseNextJob H env leaseOwner kinds excluded ttl now).run t = .ok (result, t')) :
    (result = none ∧ t' = t) ∨
    ∃ owner row event, t.job? row.jobId.val = some row ∧ row.status = .queued ∧
      row.cancelRequested = false ∧ (row.attempt < row.maxAttempts ∨ row.continuation = true) ∧
      row.availableAt ≤ now.getD env.time ∧
      JobCommit t t' row
        (leaseChange owner (now.getD env.time) (now.getD env.time + max 2 ttl) row) event ∧
      result = some (cursorChange event.sequence
        (leaseChange owner (now.getD env.time) (now.getD env.time + max 2 ttl) row)).record := by
  unfold leaseNextJob at h
  obtain ⟨owner, -, h⟩ := Txn.run_lift_bind_eq_ok.mp h
  obtain ⟨cleanKinds, -, h⟩ := Txn.run_lift_bind_eq_ok.mp h
  rw [Txn.run_read_bind] at h
  cases hnext : nextLeasable t (now.getD env.time) (cleanKinds.map (·.val)) excluded with
  | none =>
      rw [hnext] at h
      obtain ⟨rfl, rfl⟩ := Txn.run_pure_eq_ok.mp h
      exact Or.inl ⟨rfl, rfl⟩
  | some row =>
      rw [hnext] at h
      dsimp only at h
      obtain ⟨hmem, hleasable⟩ := mem_of_nextLeasable hnext
      simp only [leasable, Bool.and_eq_true, Bool.or_eq_true, beq_iff_eq, Bool.not_eq_true',
        decide_eq_true_eq] at hleasable
      obtain ⟨⟨⟨⟨⟨hqueued, hdue⟩, hopen⟩, hallowed⟩, -⟩, -⟩ := hleasable
      have hrow : t.job? row.jobId.val = some row := Table.find?_key_of_mem hmem
      obtain ⟨u, t₁, hcas, h⟩ := Txn.run_bind_eq_ok.mp h
      obtain ⟨record, t₂, hpub, h⟩ := Txn.run_bind_eq_ok.mp h
      obtain ⟨rfl, rfl⟩ := Txn.run_pure_eq_ok.mp h
      obtain ⟨event, hcommit, hrecord⟩ := commit_eq_ok
        (Txn.run_bind_eq_ok.mpr ⟨u, t₁, hcas, hpub⟩) hrow (by simp [hqueued]) (fun _ => rfl)
        fun _ => by simp [leasePayload, Dict.get?_cons]
      exact Or.inr ⟨owner.val, row, event, hrow, hqueued, hopen, hallowed, hdue, hcommit,
        by rw [hrecord]⟩

/-- What every operation on one named job comes to: a row was read, and the row
it was changed to was published. -/
def CommitsJob (t t' : Tables) (jobId : String) (record : JobRecord) (guard : JobRow → Prop)
    (change : JobRow → JobRow) : Prop :=
  ∃ row event, t.job? jobId = some row ∧ guard row ∧ JobCommit t t' row (change row) event ∧
    record = (cursorChange event.sequence (change row)).record

theorem startJob_eq_ok {jobId owner : String} {epoch : Nat} {sync : Bool}
    {revision : Option Int} {now : Option ℚ} {record : JobRecord}
    (h : (startJob H env jobId owner epoch sync revision now).run t = .ok (record, t')) :
    CommitsJob t t' jobId record
      (fun row => LeaseHeld row owner epoch (now.getD env.time) [.leased])
      (startChange sync (now.getD env.time)) := by
  unfold startJob at h
  obtain ⟨row, hrow, h⟩ := jobRow_bind_eq_ok.mp h
  obtain ⟨-, h⟩ := expectRevision_bind_eq_ok.mp h
  obtain ⟨hheld, h⟩ := expectLease_bind_eq_ok.mp h
  obtain ⟨event, hcommit, hrecord⟩ :=
    commit_eq_ok h hrow (by simp) (fun _ => rfl) fun _ => rfl
  exact ⟨row, event, hrow, hheld, hcommit, hrecord⟩

/-- A heartbeat changes its row and publishes nothing. -/
theorem heartbeatJob_eq_ok {jobId owner : String} {epoch : Nat} {ttl : ℚ}
    {progress : Option PyDict} {now : Option ℚ} {record : JobRecord}
    (h : (heartbeatJob H env jobId owner epoch ttl progress now).run t = .ok (record, t')) :
    ∃ row stored, t.job? jobId = some row ∧
      LeaseHeld row owner epoch (now.getD env.time) JobStatus.leasedStates ∧
      JobChanged t t' row
        (heartbeatChange (now.getD env.time) (now.getD env.time + max 2 ttl) stored row) ∧
      OnlyJobs t t' := by
  unfold heartbeatJob at h
  obtain ⟨row, hrow, h⟩ := jobRow_bind_eq_ok.mp h
  obtain ⟨hheld, h⟩ := expectLease_bind_eq_ok.mp h
  obtain ⟨stored, -, h⟩ := Txn.run_lift_bind_eq_ok.mp h
  obtain ⟨u, t₁, hcas, h⟩ := Txn.run_bind_eq_ok.mp h
  obtain ⟨hchanged, honly⟩ := casJob_eq_ok hcas hrow (by simp) fun _ => rfl
  obtain ⟨row', -, -, rfl⟩ := returnJob_eq_ok h
  exact ⟨row, stored, hrow, hheld, hchanged, honly⟩

theorem expectProgress_bind_eq_ok {row : JobRow} {owner : String} {epoch : Nat} {now : ℚ}
    {f : Unit → Work β} {b : β} :
    (expectProgress row owner epoch now >>= f).run t = .ok (b, t') ↔
      (LeaseHeld row owner epoch now JobStatus.leasedStates ∨
        row.status = .waiting ∨ row.status = .paused) ∧ (f ()).run t = .ok (b, t') := by
  unfold expectProgress
  by_cases hs : row.status ∈ JobStatus.leasedStates
  · rw [if_pos hs, expectLease_bind_eq_ok]
    refine and_congr_left fun _ => ⟨Or.inl, fun h => h.resolve_right ?_⟩
    intro hw
    revert hs
    rcases hw with hw | hw <;> rw [hw] <;> decide
  · rw [if_neg hs, Txn.run_ensure_bind_eq_ok]
    refine and_congr_left fun _ => ⟨Or.inr, fun h => h.resolve_left ?_⟩
    exact fun hh => hs hh.1

theorem updateJobProgress_eq_ok {jobId : String} {progress : PyDict} {owner : String}
    {epoch : Nat} {revision : Option Int} {merge : Bool} {actor : Option WorkActor}
    {now : Option ℚ} {record : JobRecord}
    (h : (updateJobProgress H env jobId progress owner epoch revision merge actor now).run t =
      .ok (record, t')) :
    ∃ stored, CommitsJob t t' jobId record
      (fun row => LeaseHeld row owner epoch (now.getD env.time) JobStatus.leasedStates ∨
        row.status = .waiting ∨ row.status = .paused)
      (progressChange (now.getD env.time) stored) := by
  unfold updateJobProgress at h
  obtain ⟨row, hrow, h⟩ := jobRow_bind_eq_ok.mp h
  obtain ⟨-, h⟩ := expectRevision_bind_eq_ok.mp h
  obtain ⟨hallowed, h⟩ := expectProgress_bind_eq_ok.mp h
  obtain ⟨stored, -, h⟩ := Txn.run_lift_bind_eq_ok.mp h
  obtain ⟨event, hcommit, hrecord⟩ :=
    commit_eq_ok h hrow (by simp) (fun _ => rfl) fun _ => rfl
  exact ⟨stored, row, event, hrow, hallowed, hcommit, hrecord⟩

theorem markJobWaiting_eq_ok {jobId owner : String} {epoch : Nat} {progress : Option PyDict}
    {now : Option ℚ} {record : JobRecord}
    (h : (markJobWaiting H env jobId owner epoch progress now).run t = .ok (record, t')) :
    ∃ stored, CommitsJob t t' jobId record
      (fun row => LeaseHeld row owner epoch (now.getD env.time) [.running])
      (waitChange (now.getD env.time) stored) := by
  unfold markJobWaiting at h
  obtain ⟨row, hrow, h⟩ := jobRow_bind_eq_ok.mp h
  obtain ⟨hheld, h⟩ := expectLease_bind_eq_ok.mp h
  obtain ⟨stored, -, h⟩ := Txn.run_lift_bind_eq_ok.mp h
  obtain ⟨event, hcommit, hrecord⟩ :=
    commit_eq_ok h hrow (by simp) (fun _ => rfl) fun _ => rfl
  exact ⟨stored, row, event, hrow, hheld, hcommit, hrecord⟩

theorem wakeJob_eq_ok {jobId : String} {revision : Option Int} {available : Option ℚ}
    {actor : Option WorkActor} {record : JobRecord}
    (h : (wakeJob H env jobId revision available actor).run t = .ok (record, t')) :
    CommitsJob t t' jobId record (fun row => row.status = .waiting ∨ row.status = .paused)
      (wakeChange env.time (available.getD env.time)) := by
  unfold wakeJob at h
  obtain ⟨row, hrow, h⟩ := jobRow_bind_eq_ok.mp h
  obtain ⟨-, h⟩ := expectRevision_bind_eq_ok.mp h
  obtain ⟨hparked, h⟩ := Txn.run_ensure_bind_eq_ok.mp h
  obtain ⟨event, hcommit, hrecord⟩ :=
    commit_eq_ok h hrow (by simp) (fun _ => rfl) fun _ => rfl
  exact ⟨row, event, hrow, hparked, hcommit, hrecord⟩

theorem pauseJob_eq_ok {jobId reason : String} {revision : Option Int}
    {actor : Option WorkActor} {record : JobRecord}
    (h : (pauseJob H env jobId reason revision actor).run t = .ok (record, t')) :
    ∃ stored, CommitsJob t t' jobId record
      (fun row => row.status = .queued ∨ row.status = .waiting)
      (pauseChange env.time stored) := by
  unfold pauseJob at h
  obtain ⟨row, hrow, h⟩ := jobRow_bind_eq_ok.mp h
  obtain ⟨-, h⟩ := expectRevision_bind_eq_ok.mp h
  obtain ⟨hidle, h⟩ := Txn.run_ensure_bind_eq_ok.mp h
  obtain ⟨progress, -, h⟩ := Txn.run_lift_bind_eq_ok.mp h
  obtain ⟨stored, -, h⟩ := Txn.run_lift_bind_eq_ok.mp h
  obtain ⟨event, hcommit, hrecord⟩ :=
    commit_eq_ok h hrow (by simp) (fun _ => rfl) fun _ => rfl
  exact ⟨stored, row, event, hrow, hidle, hcommit, hrecord⟩

/-- A cancellation of a settled or already cancelled job only reads it. -/
theorem requestJobCancel_eq_ok {jobId reason : String} {revision : Option Int}
    {actor : Option WorkActor} {record : JobRecord}
    (h : (requestJobCancel H env jobId reason revision actor).run t = .ok (record, t')) :
    (∃ row, t.job? jobId = some row ∧
      (row.status ∈ JobStatus.terminal ∨ row.cancelRequested = true) ∧ record = row.record ∧
        t' = t) ∨
    ∃ clean row event, t.job? jobId = some row ∧ row.status ∉ JobStatus.terminal ∧
      row.cancelRequested = false ∧
      JobCommit t t' row (cancelChange env.time clean (cancelsAtOnce row.status) row) event ∧
      record = (cursorChange event.sequence
        (cancelChange env.time clean (cancelsAtOnce row.status) row)).record := by
  unfold requestJobCancel at h
  obtain ⟨clean, -, h⟩ := Txn.run_lift_bind_eq_ok.mp h
  obtain ⟨row, hrow, h⟩ := jobRow_bind_eq_ok.mp h
  obtain ⟨-, h⟩ := expectRevision_bind_eq_ok.mp h
  by_cases hterm : row.status ∈ JobStatus.terminal
  · rw [if_pos hterm] at h
    obtain ⟨row', hrow', hrecord, rfl⟩ := returnJob_eq_ok h
    obtain rfl := Option.some.inj (hrow.symm.trans hrow')
    exact Or.inl ⟨row, hrow, Or.inl hterm, hrecord, rfl⟩
  rw [if_neg hterm] at h
  by_cases hcancel : row.cancelRequested = true
  · rw [if_pos hcancel] at h
    obtain ⟨row', hrow', hrecord, rfl⟩ := returnJob_eq_ok h
    obtain rfl := Option.some.inj (hrow.symm.trans hrow')
    exact Or.inl ⟨row, hrow, Or.inr hcancel, hrecord, rfl⟩
  rw [if_neg hcancel] at h
  obtain ⟨event, hcommit, hrecord⟩ := commit_eq_ok h hrow (by simp)
    (fun _ => rfl) fun _ => by simp [Dict.get?_cons]
  exact Or.inr ⟨clean.val, row, event, hrow, hterm, by simpa using hcancel, hcommit, hrecord⟩

theorem acknowledgeJobCancel_eq_ok {jobId owner : String} {epoch : Nat} {now : Option ℚ}
    {record : JobRecord}
    (h : (acknowledgeJobCancel H env jobId owner epoch now).run t = .ok (record, t')) :
    (∃ row, t.job? jobId = some row ∧ row.status = .cancelled ∧ t' = t) ∨
    CommitsJob t t' jobId record
      (fun row => LeaseHeld row owner epoch (now.getD env.time) JobStatus.leasedStates ∧
        row.cancelRequested = true)
      (acknowledgeChange (now.getD env.time)) := by
  unfold acknowledgeJobCancel at h
  obtain ⟨row, hrow, h⟩ := jobRow_bind_eq_ok.mp h
  by_cases hcancelled : row.status = .cancelled
  · rw [if_pos hcancelled] at h
    obtain ⟨-, -, -, rfl⟩ := returnJob_eq_ok h
    exact Or.inl ⟨row, hrow, hcancelled, rfl⟩
  rw [if_neg hcancelled] at h
  obtain ⟨hheld, h⟩ := expectLease_bind_eq_ok.mp h
  obtain ⟨hasked, h⟩ := Txn.run_ensure_bind_eq_ok.mp h
  obtain ⟨n, t₁, hupdate, h⟩ := Txn.run_bind_eq_ok.mp h
  obtain ⟨event, hcommit, hrecord⟩ := publish_eq_ok h hrow
    (updateJobRows_eq_ok hupdate hrow (by simp) fun _ => rfl) (fun _ => rfl) fun _ => rfl
  exact Or.inr ⟨row, event, hrow, ⟨hheld, hasked⟩, hcommit, hrecord⟩

theorem finishJob_eq_ok {jobId status owner : String} {epoch : Nat}
    {resultRef diagnosticsRef : String} {progress : Option PyDict} {error : String} {now : ℚ}
    {record : JobRecord}
    (h : (finishJob H env jobId status owner epoch resultRef diagnosticsRef progress error
      now).run t = .ok (record, t')) :
    ∃ target ∈ JobStatus.terminal, target.text = status ∧
      ∃ result diagnostics clean stored, CommitsJob t t' jobId record
        (fun row => LeaseHeld row owner epoch now JobStatus.leasedStates ∧
          ¬ (row.cancelRequested = true ∧ target = .succeeded))
        (finishChange target result diagnostics clean stored now) := by
  unfold finishJob at h
  cases htarget : JobStatus.terminal.find? (fun s => s.text == status) with
  | none => simp [htarget] at h
  | some target =>
      rw [htarget] at h
      dsimp only at h
      obtain ⟨row, hrow, h⟩ := jobRow_bind_eq_ok.mp h
      obtain ⟨hheld, h⟩ := expectLease_bind_eq_ok.mp h
      obtain ⟨hallowed, h⟩ := Txn.run_ensure_bind_eq_ok.mp h
      obtain ⟨stored, -, h⟩ := Txn.run_lift_bind_eq_ok.mp h
      obtain ⟨result, -, h⟩ := Txn.run_lift_bind_eq_ok.mp h
      obtain ⟨diagnostics, -, h⟩ := Txn.run_lift_bind_eq_ok.mp h
      obtain ⟨clean, -, h⟩ := Txn.run_lift_bind_eq_ok.mp h
      obtain ⟨event, hcommit, hrecord⟩ := commit_eq_ok h hrow (by simp)
        (fun _ => rfl) fun _ => by simp [finishPayload, Dict.get?_cons]
      exact ⟨target, List.mem_of_find?_eq_some htarget, by simpa using List.find?_some htarget,
        _, _, _, stored, row, event, hrow, ⟨hheld, hallowed⟩, hcommit, hrecord⟩

theorem releaseJob_eq_ok {jobId owner : String} {epoch : Nat} {error : String} {delay : ℚ}
    {unknown : Bool} {now : Option ℚ} {record : JobRecord}
    (h : (releaseJob H env jobId owner epoch error delay unknown now).run t =
      .ok (record, t')) :
    ∃ clean, CommitsJob t t' jobId record
      (fun row => LeaseHeld row owner epoch (now.getD env.time) JobStatus.leasedStates)
      (fun row => releaseChange (releaseTarget unknown row) (now.getD env.time + max 0 delay)
        clean (now.getD env.time) row) := by
  unfold releaseJob at h
  obtain ⟨row, hrow, h⟩ := jobRow_bind_eq_ok.mp h
  obtain ⟨hheld, h⟩ := expectLease_bind_eq_ok.mp h
  obtain ⟨clean, -, h⟩ := Txn.run_lift_bind_eq_ok.mp h
  obtain ⟨event, hcommit, hrecord⟩ := commit_eq_ok h hrow (by simp)
    (fun _ => rfl) fun _ => by simp [releasePayload, Dict.get?_cons]
  exact ⟨clean.val, row, event, hrow, hheld, hcommit, hrecord⟩

theorem retryJob_eq_ok {jobId : String} {revision : Option Int} {available : Option ℚ}
    {reset : Bool} {actor : Option WorkActor} {record : JobRecord}
    (h : (retryJob H env jobId revision available reset actor).run t = .ok (record, t')) :
    CommitsJob t t' jobId record
      (fun row => (row.status = .failed ∨ row.status = .unknownEffect) ∧
        (reset = true ∨ row.attempt < row.maxAttempts))
      (retryChange reset env.time (available.getD env.time)) := by
  unfold retryJob at h
  obtain ⟨row, hrow, h⟩ := jobRow_bind_eq_ok.mp h
  obtain ⟨-, h⟩ := expectRevision_bind_eq_ok.mp h
  obtain ⟨hended, h⟩ := Txn.run_ensure_bind_eq_ok.mp h
  obtain ⟨hallowed, h⟩ := Txn.run_ensure_bind_eq_ok.mp h
  obtain ⟨event, hcommit, hrecord⟩ := commit_eq_ok h hrow (by simp)
    (fun _ => rfl) fun _ => by simp [Dict.get?_cons]
  exact ⟨row, event, hrow, ⟨hended, hallowed⟩, hcommit, hrecord⟩

theorem recoverJob_eq_ok {now : ℚ} {row : JobRow} {record : JobRecord}
    (hrow : t.job? row.jobId.val = some row)
    (h : (recoverJob H env now row).run t = .ok (record, t')) :
    ∃ available event, JobCommit t t' row (recoverChange row available now row) event ∧
      record = (cursorChange event.sequence (recoverChange row available now row)).record := by
  unfold recoverJob at h
  obtain ⟨delay, -, h⟩ := Txn.run_lift_bind_eq_ok.mp h
  obtain ⟨event, hcommit, hrecord⟩ := commit_eq_ok h hrow (by simp)
    (fun _ => rfl) fun _ => by simp [Dict.get?_cons]
  exact ⟨_, event, hcommit, hrecord⟩

theorem commitResult_eq_ok {jobId owner : String} {epoch : Nat} {before during : Bool}
    {publish : Except Raised JobResult} {record : JobRecord}
    (h : (commitResult H env jobId owner epoch before during publish).run t =
      .ok (record, t')) :
    ∃ result diagnostics clean stored row event, t.job? jobId = some row ∧
      LeaseHeld row owner epoch env.time JobStatus.leasedStates ∧
      LeaseHeld row owner epoch env.finishTime JobStatus.leasedStates ∧
      row.cancelRequested = false ∧
      JobCommit t t' row
        (finishChange .succeeded result diagnostics clean stored env.finishTime row) event ∧
      record = (cursorChange event.sequence
        (finishChange .succeeded result diagnostics clean stored env.finishTime row)).record := by
  unfold commitResult at h
  obtain ⟨row, hrow, h⟩ := jobRow_bind_eq_ok.mp h
  obtain ⟨hheld, h⟩ := expectLease_bind_eq_ok.mp h
  obtain ⟨hopen, h⟩ := Txn.run_ensure_bind_eq_ok.mp h
  obtain ⟨result, -, h⟩ := Txn.run_lift_bind_eq_ok.mp h
  obtain ⟨-, h⟩ := Txn.run_ensure_bind_eq_ok.mp h
  obtain ⟨target, -, htext, res, diag, clean, stored, row', event, hrow', hguard, hcommit,
    hrecord⟩ := finishJob_eq_ok h
  obtain rfl := Option.some.inj (hrow.symm.trans hrow')
  obtain rfl : target = .succeeded := JobStatus.text_injective htext
  refine ⟨res, diag, clean, stored, row, event, hrow, hheld, hguard.1, ?_, hcommit, hrecord⟩
  rw [not_or] at hopen
  simpa using hopen.2

/-! ## Creating a job -/

/-- A job was created.  Its event was logged, unless its key already named an
event of that job. -/
structure JobCreated (t t' : Tables) (row : JobRow) (event : WorkEvent) : Prop where
  fresh : t.job? row.jobId.val = none
  rows : t'.jobs.rows = t.jobs.rows ++ [cursorChange event.sequence row]
  log : (OnlyJobs t t' ∧ event ∈ t.events.rows ∧ event.aggregateKind.val = "job" ∧
      event.aggregateId = row.jobId) ∨
    (Logged t t' event ∧ EventOfJob row event ∧
      event.aggregateVersion = t.currentVersion "job" row.jobId.val + 1)

/-- A job that is not in the table is no row of it. -/
theorem map_other_rows {jobId : String} (h : t.job? jobId = none) (row' : JobRow) :
    (t.jobs.rows.map fun r => if r.jobId.val = jobId then row' else r) = t.jobs.rows := by
  conv_rhs => rw [← List.map_id t.jobs.rows]
  refine List.map_congr_left fun r hr => ?_
  have hne : r.jobId.val ≠ jobId := by
    intro hrj
    have hsome : t.job? jobId = some r := Table.find?_eq_some_iff.mpr ⟨hr, hrj⟩
    exact absurd (h.symm.trans hsome) (by simp)
  rw [if_neg hne, id_eq]

theorem JobCreated.job? {row : JobRow} {event : WorkEvent} (h : JobCreated t t' row event)
    (j : String) :
    t'.job? j =
      if row.jobId.val = j then some (cursorChange event.sequence row) else t.job? j :=
  Table.find?_of_rows_append h.rows j

/-- A creation answers a repeated key from the table and changes nothing, or it
inserts a new job. -/
theorem createJob_eq_ok {a : JobArgs} {record : JobRecord}
    (h : (createJob H env a).run t = .ok (record, t')) :
    ∃ c fingerprint, cleanJob a = .ok c ∧ jobFingerprint H c a = .ok fingerprint ∧
      ((∃ existing, priorJob t c = some existing ∧ sameRequest existing c a fingerprint ∧
          record = existing.record ∧ t' = t) ∨
        (priorJob t c = none ∧ ∃ manifest policy event,
          inlineJson H a.inputManifest = .ok manifest ∧ inlineJson H a.retryPolicy = .ok policy ∧
          JobCreated t t' (newJobRow c a (c.identifier (env.uuid "job" t.eventSequence))
            fingerprint manifest policy env.time) event ∧
          record = (cursorChange event.sequence
            (newJobRow c a (c.identifier (env.uuid "job" t.eventSequence)) fingerprint manifest
              policy env.time)).record)) := by
  unfold createJob at h
  obtain ⟨c, hc, h⟩ := Txn.run_lift_bind_eq_ok.mp h
  obtain ⟨fingerprint, hf, h⟩ := Txn.run_lift_bind_eq_ok.mp h
  rw [Txn.run_read_bind] at h
  refine ⟨c, fingerprint, hc, hf, ?_⟩
  cases hp : priorJob t c with
  | some existing =>
      rw [hp] at h
      obtain ⟨hsame, h⟩ := Txn.run_ensure_bind_eq_ok.mp h
      obtain ⟨rfl, rfl⟩ := Txn.run_pure_eq_ok.mp h
      exact Or.inl ⟨existing, rfl, hsame, rfl, rfl⟩
  | none =>
      rw [hp] at h
      obtain ⟨scopeDoc, -, h⟩ := Txn.run_lift_bind_eq_ok.mp h
      obtain ⟨manifest, hm, h⟩ := Txn.run_lift_bind_eq_ok.mp h
      obtain ⟨-, h⟩ := Txn.run_ensure_bind_eq_ok.mp h
      obtain ⟨policy, hpol, h⟩ := Txn.run_lift_bind_eq_ok.mp h
      dsimp only at h
      generalize hrow : newJobRow c a (c.identifier (env.uuid "job" t.eventSequence)) fingerprint
        manifest policy env.time = row at h ⊢
      obtain ⟨u, t₁, hins, h⟩ := Txn.run_bind_eq_ok.mp h
      obtain ⟨hfresh, jobs, hrows, rfl⟩ := insertJobRow_eq_ok hins
      have hfound : Tables.job? { t with jobs := jobs } row.jobId.val = some row := by
        refine (Table.find?_of_rows_append hrows _).trans ?_
        rw [if_pos rfl]
      obtain ⟨event, t₂, hev, h⟩ := Txn.run_bind_eq_ok.mp h
      obtain ⟨row₂, hrow₂, hrecord, rfl⟩ := returnJob_eq_ok h
      obtain ⟨hcur, hcases⟩ := jobEvent_eq_ok rfl hfound hev
      have hrow' : row₂ = cursorChange event.sequence row := by
        rw [hcur.job?, if_pos rfl] at hrow₂
        exact (Option.some.inj hrow₂).symm
      refine Or.inr ⟨rfl, manifest, policy, event, hm, hpol, ?_, by rw [hrow, hrecord, hrow']⟩
      rw [hrow]
      refine ⟨hfresh, ?_, ?_⟩
      · rw [hcur.rows]
        dsimp only
        rw [hrows, List.map_append, List.map_singleton, if_pos rfl, map_other_rows hfresh]
      · rcases hcases with ⟨-, honly, hmem, hkind, hagg⟩ | ⟨hlog, hof, hver⟩
        · exact Or.inl ⟨⟨honly.events, honly.eventSequence, honly.outbox, honly.projections⟩,
            hmem, hkind, hagg⟩
        · exact Or.inr ⟨hlog.of_only ⟨rfl, rfl, rfl, rfl⟩, hof, hver⟩

/-! ## The recovery loop -/

/-- Rows recovered one after the other. -/
inductive Recovered (now : ℚ) : Tables → List JobRow → Tables → List JobRecord → Prop
  | nil (u : Tables) : Recovered now u [] u []
  | cons {u u₁ u' : Tables} {row : JobRow} {rows : List JobRow} {available : ℚ}
      {event : WorkEvent} {records : List JobRecord}
      (commit : JobCommit u u₁ row (recoverChange row available now row) event)
      (rest : Recovered now u₁ rows u' records) :
      Recovered now u (row :: rows) u'
        ((cursorChange event.sequence (recoverChange row available now row)).record :: records)

theorem recoverJobs_eq_ok {now : ℚ} {rows : List JobRow} {records : List JobRecord}
    (hnodup : (rows.map fun r => r.jobId.val).Nodup)
    (hrows : ∀ r ∈ rows, t.job? r.jobId.val = some r)
    (h : (recoverJobs H env now rows).run t = .ok (records, t')) :
    Recovered now t rows t' records := by
  induction rows generalizing t records with
  | nil =>
      unfold recoverJobs at h
      obtain ⟨rfl, rfl⟩ := Txn.run_pure_eq_ok.mp h
      exact .nil t
  | cons row rows ih =>
      unfold recoverJobs at h
      obtain ⟨record, t₁, hone, h⟩ := Txn.run_bind_eq_ok.mp h
      obtain ⟨records', t₂, hrest, h⟩ := Txn.run_bind_eq_ok.mp h
      obtain ⟨rfl, rfl⟩ := Txn.run_pure_eq_ok.mp h
      obtain ⟨available, event, hcommit, rfl⟩ := recoverJob_eq_ok (hrows row (by simp)) hone
      rw [List.map_cons, List.nodup_cons] at hnodup
      refine .cons hcommit (ih hnodup.2 (fun r hr => ?_) hrest)
      have hne : row.jobId.val ≠ r.jobId.val :=
        fun hk => hnodup.1 (hk ▸ List.mem_map_of_mem (f := fun r : JobRow => r.jobId.val) hr)
      rw [hcommit.changed.job?, if_neg hne]
      exact hrows r (by simp [hr])

theorem expiredJobs_nodup (t : Tables) (now : ℚ) :
    ((expiredJobs t now).map fun r => r.jobId.val).Nodup := by
  have hperm := (List.perm_insertionSort expiryOrder (t.jobs.rows.filter (leaseExpired now))).map
    fun r : JobRow => r.jobId.val
  exact hperm.nodup_iff.mpr (List.Nodup.sublist (List.filter_sublist.map _) t.jobs.unique)

theorem mem_expiredJobs {now : ℚ} {row : JobRow} :
    row ∈ expiredJobs t now ↔ row ∈ t.jobs.rows ∧ leaseExpired now row = true :=
  (List.perm_insertionSort _ _).mem_iff.trans List.mem_filter

theorem recoverExpiredJobLeases_eq_ok {now : Option ℚ} {records : List JobRecord}
    (h : (recoverExpiredJobLeases H env now).run t = .ok (records, t')) :
    Recovered (now.getD env.time) t (expiredJobs t (now.getD env.time)) t' records := by
  unfold recoverExpiredJobLeases at h
  rw [Txn.run_read_bind] at h
  exact recoverJobs_eq_ok (expiredJobs_nodup t _)
    (fun r hr => Table.find?_key_of_mem (mem_expiredJobs.mp hr).1) h

/-- The records recovery returns are those of the rows it found. -/
theorem Recovered.jobIds {now : ℚ} {rows : List JobRow} {records : List JobRecord}
    (h : Recovered now t rows t' records) :
    records.map (fun r => r.jobId.val) = rows.map fun r => r.jobId.val := by
  induction h with
  | nil => rfl
  | cons commit rest ih => rw [List.map_cons, List.map_cons, ih]; rfl

/-- Recovery changes the rows it found, each once, and no other. -/
theorem Recovered.job? {now : ℚ} {rows : List JobRow} {records : List JobRecord}
    (h : Recovered now t rows t' records) (hnodup : (rows.map fun r => r.jobId.val).Nodup)
    (j : String) :
    (∃ row ∈ rows, row.jobId.val = j ∧ t.job? j = some row ∧ ∃ available cursor,
      t'.job? j = some (cursorChange cursor (recoverChange row available now row))) ∨
    ((∀ row ∈ rows, row.jobId.val ≠ j) ∧ t'.job? j = t.job? j) := by
  induction h with
  | nil u => exact Or.inr ⟨by simp, rfl⟩
  | @cons u u₁ u' row rows available event records commit rest ih =>
      rw [List.map_cons, List.nodup_cons] at hnodup
      by_cases hj : row.jobId.val = j
      · have hnone : ∀ r ∈ rows, r.jobId.val ≠ j := fun r hr hk =>
          hnodup.1 (hj.trans hk.symm ▸
            List.mem_map_of_mem (f := fun r : JobRow => r.jobId.val) hr)
        rcases ih hnodup.2 with ⟨r, hr, hk, -⟩ | ⟨-, hsame⟩
        · exact absurd hk (hnone r hr)
        · refine Or.inl ⟨row, by simp, hj, hj ▸ commit.changed.found, available, event.sequence, ?_⟩
          rw [hsame, commit.changed.job?, if_pos hj]
      · rcases ih hnodup.2 with ⟨r, hr, hk, hfound, hrest⟩ | ⟨hnone, hsame⟩
        · rw [commit.changed.job?, if_neg hj] at hfound
          exact Or.inl ⟨r, by simp [hr], hk, hfound, hrest⟩
        · refine Or.inr ⟨?_, by rw [hsame, commit.changed.job?, if_neg hj]⟩
          intro r hr
          rcases List.mem_cons.mp hr with rfl | hr
          · exact hj
          · exact hnone r hr

end WorkFabric
end VariantOne
