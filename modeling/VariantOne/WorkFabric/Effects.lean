import VariantOne.WorkFabric.JobSpecs
import VariantOne.WorkFabric.OutboxSpecs
import VariantOne.WorkFabric.Repository

/-!
# What a call does to the tables

The repository has twenty-two operations and eight ways to change the tables.
`Effect` lists the ways and `effect_of_perform` sorts the operations into them, so
that an invariant of the tables is checked against eight cases, and recovery,
which is a sequence of commits, against one of them (`Recovered.preserves`).

The request a job was created with is never rewritten: every commit keeps
`JobRow.request`.

The sort of an operation is all that the modules above look at: `LogAligned`, the outbox, the projections
and the jobs each have their own invariant, and each is checked against the eight cases once.
-/

namespace VariantOne
namespace WorkFabric

/-- The columns a job is created with, as far as a repeated creation is compared
with them. -/
structure JobRequest where
  jobId : Text true 512
  ownerKind : Text true 100
  ownerId : Text true 512
  kind : Text true 240
  scope : WorkScope
  priority : Int
  inputManifest : List (String × Json)
  artifactRefs : List (Text true 2000)
  maxAttempts : Nat
  retryPolicy : List (String × Json)
  idempotencyKey : Text false 512
  requestFingerprint : String

/-- The request in a row. -/
def JobRow.request (r : JobRow) : JobRequest where
  jobId := r.jobId
  ownerKind := r.ownerKind
  ownerId := r.ownerId
  kind := r.kind
  scope := r.scope
  priority := r.priority
  inputManifest := r.inputManifest
  artifactRefs := r.artifactRefs
  maxAttempts := r.maxAttempts
  retryPolicy := r.retryPolicy
  idempotencyKey := r.idempotencyKey
  requestFingerprint := r.requestFingerprint

variable {H : Host} {env : Env} {t t' : Tables}

/-- A job was inserted for a creation. -/
structure CreationOf (H : Host) (env : Env) (t t' : Tables) (a : JobArgs) (c : CleanJob)
    (row : JobRow) (event : WorkEvent) : Prop extends JobCreated t t' row event where
  clean : cleanJob a = .ok c
  unused : priorJob t c = none
  request : row.jobId = c.identifier (env.uuid "job" t.eventSequence) ∧
    row.ownerKind = c.ownerKind ∧ row.ownerId = c.ownerId ∧ row.kind = c.kind ∧
    row.scope = a.scope ∧ row.priority = a.priority ∧ row.artifactRefs = c.refs ∧
    row.maxAttempts = a.retries ∧ row.idempotencyKey = c.idem
  manifest : inlineJson H a.inputManifest = .ok row.inputManifest
  policy : inlineJson H a.retryPolicy = .ok row.retryPolicy
  fingerprint : jobFingerprint H c a = .ok row.requestFingerprint
  first : row.revision = 1 ∧ row.status = .queued

/-- **The ways a call changes the tables.** -/
inductive Effect (H : Host) (env : Env) (t t' : Tables) : Op → Prop
  | nothing {op : Op} (same : t' = t) : Effect H env t t' op
  | append {a : EventArgs} {c : CleanEvent} {event : WorkEvent} (clean : cleanEvent a = .ok c)
      (unused : priorEvent t c = none) (appended : Appended t t' event)
      (of : EventOf H t c a event) : Effect H env t t' (.appendEvent a)
  | create {a : JobArgs} {c : CleanJob} {row : JobRow} {event : WorkEvent}
      (creation : CreationOf H env t t' a c row event) : Effect H env t t' (.createJob a)
  | commit {op : Op} {row row' : JobRow} {event : WorkEvent} (same : row'.request = row.request)
      (committed : JobCommit t t' row row' event) : Effect H env t t' op
  | beat {op : Op} {row : JobRow} {now expires : ℚ} {progress : List (String × Json)}
      (changed : JobChanged t t' row (heartbeatChange now expires progress row))
      (only : OnlyJobs t t') : Effect H env t t' op
  | recover {op : Op} {now : ℚ} {rows : List JobRow} {records : List JobRecord}
      (recovered : Recovered now t rows t' records) : Effect H env t t' op
  | outbox {op : Op} {f : OutboxRow → OutboxRow} (mapped : OutboxMapped t t' f) :
      Effect H env t t' op
  | project {op : Op} (only : OnlyProjections t t') : Effect H env t t' op

theorem effect_of_commits {jobId : String} {record : JobRecord} {guard : JobRow → Prop}
    {change : JobRow → JobRow} {op : Op} (h : CommitsJob t t' jobId record guard change)
    (hsame : ∀ r, (change r).request = r.request) : Effect H env t t' op := by
  obtain ⟨row, event, -, -, hcommit, -⟩ := h
  exact .commit (hsame row) hcommit

theorem effect_of_createJob {a : JobArgs} {record : JobRecord}
    (h : (createJob H env a).run t = .ok (record, t')) :
    Effect H env t t' (.createJob a) := by
  obtain ⟨c, fingerprint, hc, hf, hcases⟩ := createJob_eq_ok h
  rcases hcases with ⟨existing, -, -, -, rfl⟩ | ⟨hunused, manifest, policy, event, hm, hp, hnew, -⟩
  · exact .nothing rfl
  · exact .create
      { toJobCreated := hnew
        clean := hc
        unused := hunused
        request := ⟨rfl, rfl, rfl, rfl, rfl, rfl, rfl, rfl, rfl⟩
        manifest := hm
        policy := hp
        fingerprint := hf
        first := ⟨rfl, rfl⟩ }

/-- **Every call that returns changes the tables in one of these ways.** -/
theorem effect_of_perform {op : Op} {outcome : Outcome}
    (h : (perform H env op).run t = .ok (outcome, t')) : Effect H env t t' op := by
  cases op with
  | appendEvent a =>
      rw [perform] at h
      obtain ⟨event, hrun, -⟩ := Txn.run_map_eq_ok.mp h
      obtain ⟨c, hc, ⟨-, rfl, -⟩ | ⟨hunused, happ, hof⟩⟩ := insertEvent_ok hrun
      · exact .nothing rfl
      · exact .append hc hunused happ hof
  | createJob a =>
      rw [perform] at h
      obtain ⟨record, hrun, -⟩ := Txn.run_map_eq_ok.mp h
      exact effect_of_createJob hrun
  | leaseNextJob owner kinds excluded ttl now =>
      rw [perform] at h
      obtain ⟨result, hrun, -⟩ := Txn.run_map_eq_ok.mp h
      rcases leaseNextJob_eq_ok hrun with ⟨-, rfl⟩ | ⟨worker, row, event, -, -, -, -, -, hcommit, -⟩
      · exact .nothing rfl
      · exact .commit (by rfl) hcommit
  | startJob jobId owner epoch sync revision now =>
      rw [perform] at h
      obtain ⟨record, hrun, -⟩ := Txn.run_map_eq_ok.mp h
      exact effect_of_commits (startJob_eq_ok hrun) fun _ => rfl
  | heartbeatJob jobId owner epoch ttl progress now =>
      rw [perform] at h
      obtain ⟨record, hrun, -⟩ := Txn.run_map_eq_ok.mp h
      obtain ⟨row, stored, -, -, hchanged, honly⟩ := heartbeatJob_eq_ok hrun
      exact .beat hchanged honly
  | updateJobProgress jobId progress owner epoch revision merge actor now =>
      rw [perform] at h
      obtain ⟨record, hrun, -⟩ := Txn.run_map_eq_ok.mp h
      obtain ⟨stored, hcommits⟩ := updateJobProgress_eq_ok hrun
      exact effect_of_commits hcommits fun _ => rfl
  | markJobWaiting jobId owner epoch progress now =>
      rw [perform] at h
      obtain ⟨record, hrun, -⟩ := Txn.run_map_eq_ok.mp h
      obtain ⟨stored, hcommits⟩ := markJobWaiting_eq_ok hrun
      exact effect_of_commits hcommits fun _ => rfl
  | wakeJob jobId revision available actor =>
      rw [perform] at h
      obtain ⟨record, hrun, -⟩ := Txn.run_map_eq_ok.mp h
      exact effect_of_commits (wakeJob_eq_ok hrun) fun _ => rfl
  | pauseJob jobId reason revision actor =>
      rw [perform] at h
      obtain ⟨record, hrun, -⟩ := Txn.run_map_eq_ok.mp h
      obtain ⟨stored, hcommits⟩ := pauseJob_eq_ok hrun
      exact effect_of_commits hcommits fun _ => rfl
  | requestJobCancel jobId reason revision actor =>
      rw [perform] at h
      obtain ⟨record, hrun, -⟩ := Txn.run_map_eq_ok.mp h
      rcases requestJobCancel_eq_ok hrun with ⟨row, -, -, -, rfl⟩ |
        ⟨clean, row, event, -, -, -, hcommit, -⟩
      · exact .nothing rfl
      · exact .commit (by rfl) hcommit
  | acknowledgeJobCancel jobId owner epoch now =>
      rw [perform] at h
      obtain ⟨record, hrun, -⟩ := Txn.run_map_eq_ok.mp h
      rcases acknowledgeJobCancel_eq_ok hrun with ⟨row, -, -, hsame⟩ | hcommits
      · exact .nothing hsame
      · exact effect_of_commits hcommits fun _ => rfl
  | finishJob jobId status owner epoch result diagnostics progress error now =>
      rw [perform] at h
      obtain ⟨record, hrun, -⟩ := Txn.run_map_eq_ok.mp h
      obtain ⟨target, -, -, res, diag, clean, stored, hcommits⟩ := finishJob_eq_ok hrun
      exact effect_of_commits hcommits fun _ => rfl
  | commitResult jobId owner epoch before during publish =>
      rw [perform] at h
      obtain ⟨record, hrun, -⟩ := Txn.run_map_eq_ok.mp h
      obtain ⟨res, diag, clean, stored, row, event, -, -, -, -, hcommit, -⟩ :=
        commitResult_eq_ok hrun
      exact .commit (by rfl) hcommit
  | releaseJob jobId owner epoch error delay unknown now =>
      rw [perform] at h
      obtain ⟨record, hrun, -⟩ := Txn.run_map_eq_ok.mp h
      obtain ⟨clean, hcommits⟩ := releaseJob_eq_ok hrun
      exact effect_of_commits hcommits fun _ => rfl
  | retryJob jobId revision available reset actor =>
      rw [perform] at h
      obtain ⟨record, hrun, -⟩ := Txn.run_map_eq_ok.mp h
      exact effect_of_commits (retryJob_eq_ok hrun) fun _ => rfl
  | recoverExpiredJobLeases now =>
      rw [perform] at h
      obtain ⟨records, hrun, -⟩ := Txn.run_map_eq_ok.mp h
      exact .recover (recoverExpiredJobLeases_eq_ok hrun)
  | claimOutbox consumer limit ttl now =>
      rw [perform] at h
      obtain ⟨items, hrun, -⟩ := Txn.run_map_eq_ok.mp h
      obtain ⟨owner, -, hclaimed⟩ := claimOutbox_eq_ok hrun
      obtain ⟨t₁, hreclaim, -, hclaim, -⟩ := hclaimed.between
      exact .outbox (hreclaim.trans hclaim)
  | acknowledgeOutbox outboxId consumer epoch now =>
      rw [perform] at h
      obtain ⟨u, hrun, -⟩ := Txn.run_map_eq_ok.mp h
      obtain ⟨row, -, -, hmapped⟩ := acknowledgeOutbox_eq_ok hrun
      exact .outbox hmapped
  | rejectOutbox outboxId consumer epoch error delay maxAttempts now =>
      rw [perform] at h
      obtain ⟨status, hrun, -⟩ := Txn.run_map_eq_ok.mp h
      obtain ⟨row, clean, -, -, hmapped, -⟩ := rejectOutbox_eq_ok hrun
      exact .outbox hmapped
  | recoverExpiredOutbox now =>
      rw [perform] at h
      obtain ⟨n, hrun, -⟩ := Txn.run_map_eq_ok.mp h
      exact .outbox (recoverExpiredOutbox_eq_ok hrun)
  | reduceProjection name reducer initial batch =>
      rw [perform] at h
      obtain ⟨snapshot, hrun, -⟩ := Txn.run_map_eq_ok.mp h
      obtain ⟨clean, cursor, state, document, -, -, -, honly, -⟩ := reduceProjection_eq_ok hrun
      exact .project honly
  | projection name =>
      rw [perform] at h
      obtain ⟨snapshot, hrun, -⟩ := Txn.run_map_eq_ok.mp h
      exact .nothing (projection_same hrun)

/-- A step changes nothing or has an effect. -/
theorem effect_of_step {call : Call} {r : Except Raised Outcome}
    (h : (repository H).step call t = (r, t')) : Effect H call.env t t' call.op := by
  cases r with
  | error e => exact .nothing (step_error h)
  | ok outcome => exact effect_of_perform (step_ok h)

theorem recoverChange_request (old row : JobRow) (available now : ℚ) :
    (recoverChange old available now row).request = row.request := rfl

/-- **What every commit preserves, recovery preserves.** -/
theorem Recovered.preserves {P : Tables → Prop} {now : ℚ} {rows : List JobRow}
    {records : List JobRecord} (h : Recovered now t rows t' records)
    (hP : ∀ u u' row row' event, row'.request = row.request → JobCommit u u' row row' event →
      P u → P u') (ht : P t) : P t' := by
  induction h with
  | nil => exact ht
  | cons commit _ ih => exact ih (hP _ _ _ _ _ (recoverChange_request _ _ _ _) commit ht)

end WorkFabric
end VariantOne
