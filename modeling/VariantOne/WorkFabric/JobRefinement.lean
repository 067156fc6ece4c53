import VariantOne.WorkFabric.JobControl
import VariantOne.WorkFabric.JobSpecs
import VariantOne.WorkFabric.OutboxSpecs
import VariantOne.WorkFabric.Repository

/-!
# The repository refines the job automaton

What a call did to a job can be told from the call and its outcome alone
(`actionAt`), so the actions done to a job are a function of the history
(`actions`).  `move_of_perform` is the simulation: a call that returns moves every
job by the action it stands for, or leaves it alone.  Over a run, the control
part of a row is therefore where the automaton is after the actions of that job
(`jobRun_of_run`), and an invariant of the automaton is an invariant of the
repository.

The simulation is proved from `JobSpecs`, one operation at a time.  An operation that raises stands for no
action, and a recovery stands for one action on every row it returns to the queue, so a call can move many
jobs, each by one action at most.
-/

namespace VariantOne
namespace WorkFabric

open JobControl

/-- The control part of a row. -/
def JobRow.control (r : JobRow) : JobControl where
  status := r.status
  cancelRequested := r.cancelRequested
  continuation := r.continuation
  syncHandler := r.syncHandler
  attempt := r.attempt
  maxAttempts := r.maxAttempts
  expiryPolicy := WorkFabric.expiryPolicy r.retryPolicy
  leaseOwner := r.leaseOwner
  leaseEpoch := r.leaseEpoch
  leaseExpiresAt := r.leaseExpiresAt

/-! ## What a call did to a job -/

/-- The action a call that returned stands for, on a given job. -/
def actionAt (j : String) (env : Env) : Op → Outcome → Option JobAction
  | .createJob _, .job r =>
      if r.jobId.val = j then some (.create r.maxAttempts (expiryPolicy r.retryPolicy)) else none
  | .leaseNextJob .., .leased (some r) =>
      if r.jobId.val = j then
        some (.lease r.leaseOwner r.leaseEpoch r.leaseExpiresAt r.continuation)
      else none
  | .startJob jobId owner epoch sync _ now, .job _ =>
      if jobId = j then some (.start owner epoch (now.getD env.time) sync) else none
  | .heartbeatJob jobId owner epoch ttl _ now, .job _ =>
      if jobId = j then
        some (.heartbeat owner epoch (now.getD env.time) (now.getD env.time + max 2 ttl))
      else none
  | .updateJobProgress jobId _ owner epoch _ _ _ now, .job _ =>
      if jobId = j then some (.progress owner epoch (now.getD env.time)) else none
  | .markJobWaiting jobId owner epoch _ now, .job _ =>
      if jobId = j then some (.wait owner epoch (now.getD env.time)) else none
  | .wakeJob jobId .., .job _ => if jobId = j then some .wake else none
  | .pauseJob jobId .., .job _ => if jobId = j then some .pause else none
  | .requestJobCancel jobId .., .job _ => if jobId = j then some .requestCancel else none
  | .acknowledgeJobCancel jobId owner epoch now, .job _ =>
      if jobId = j then some (.acknowledge owner epoch (now.getD env.time)) else none
  | .finishJob jobId _ owner epoch _ _ _ _ now, .job r =>
      if jobId = j then some (.finish owner epoch (now.getD env.time) r.status) else none
  | .commitResult jobId owner epoch .., .job _ =>
      if jobId = j then some (.finish owner epoch env.finishTime .succeeded) else none
  | .releaseJob jobId owner epoch _ _ unknown now, .job _ =>
      if jobId = j then some (.release owner epoch (now.getD env.time) unknown) else none
  | .retryJob jobId _ _ reset _, .job _ => if jobId = j then some (.retry reset) else none
  | .recoverExpiredJobLeases now, .jobs records =>
      if j ∈ records.map (fun r => r.jobId.val) then some (.recover (now.getD env.time)) else none
  | _, _ => none

/-- The action of one entry of a history. -/
def entryAction (j : String) (entry : Call × Except Raised Outcome) : Option JobAction :=
  match entry.2 with
  | .ok outcome => actionAt j entry.1.env entry.1.op outcome
  | .error _ => none

/-- The actions done to a job, newest first. -/
def actions (j : String) (h : History) : List JobAction := h.filterMap (entryAction j)

@[simp] theorem actions_nil (j : String) : actions j [] = [] := rfl

theorem actions_cons_of_none {j : String} {entry : Call × Except Raised Outcome} {h : History}
    (hnone : entryAction j entry = none) : actions j (entry :: h) = actions j h := by
  rw [actions, List.filterMap_cons_none hnone, actions]

theorem actions_cons_of_some {j : String} {entry : Call × Except Raised Outcome} {h : History}
    {a : JobAction} (hsome : entryAction j entry = some a) :
    actions j (entry :: h) = a :: actions j h := by
  rw [actions, List.filterMap_cons_some hsome, actions]

/-! ## The simulation -/

/-- How a call moves a job: it leaves it alone, creates it, or takes one step of
the automaton. -/
inductive JobMove (t t' : Tables) (j : String) : Option JobAction → Prop
  | kept (same : t'.job? j = t.job? j) : JobMove t t' j none
  | created {row : JobRow} {maxAttempts : Nat} {policy : String} (fresh : t.job? j = none)
      (found : t'.job? j = some row) (control : row.control = .new maxAttempts policy)
      (hpos : 0 < maxAttempts) : JobMove t t' j (some (.create maxAttempts policy))
  | moved {row row' : JobRow} {a : JobAction} (before : t.job? j = some row)
      (after : t'.job? j = some row') (step : Step row.control a row'.control) :
      JobMove t t' j (some a)

variable {H : Host} {env : Env} {t t' : Tables}

theorem JobMove.of_same (h : t' = t) (j : String) : JobMove t t' j none :=
  .kept (by rw [h])

theorem JobMove.of_jobs (h : t'.jobs = t.jobs) (j : String) : JobMove t t' j none :=
  .kept (by unfold Tables.job?; rw [h])

theorem move_of_changed {row row' : JobRow} {a : JobAction} (h : JobChanged t t' row row')
    (hstep : Step row.control a row'.control) (j : String) :
    JobMove t t' j (if row.jobId.val = j then some a else none) := by
  by_cases hj : row.jobId.val = j
  · rw [if_pos hj]
    exact .moved (hj ▸ h.found) (by rw [h.job?, if_pos hj]) hstep
  · rw [if_neg hj]
    exact .kept (by rw [h.job?, if_neg hj])

theorem move_of_commits {jobId : String} {record : JobRecord} {guard : JobRow → Prop}
    {change : JobRow → JobRow} {a : JobAction}
    (h : CommitsJob t t' jobId record guard change)
    (hstep : ∀ row, guard row → Step row.control a (change row).control) (j : String) :
    JobMove t t' j (if jobId = j then some a else none) := by
  obtain ⟨row, event, hrow, hguard, hcommit, -⟩ := h
  rw [← jobId_of_job? hrow]
  exact move_of_changed hcommit.changed (hstep row hguard) j

theorem expired_control {now : ℚ} {r : JobRow} (h : leaseExpired now r = true) :
    r.control.Expired now := by
  rw [leaseExpired, Bool.and_eq_true, decide_eq_true_eq, Option.any_eq_true] at h
  obtain ⟨hstatus, expires, hexpires, hle⟩ := h
  exact ⟨hstatus, expires, hexpires, by simpa using hle⟩

theorem move_create {a : JobArgs} {record : JobRecord}
    (h : (createJob H env a).run t = .ok (record, t')) (j : String) :
    JobMove t t' j (if record.jobId.val = j then
      some (.create record.maxAttempts (expiryPolicy record.retryPolicy)) else none) := by
  obtain ⟨c, fingerprint, -, -, hcases⟩ := createJob_eq_ok h
  rcases hcases with ⟨existing, hprior, -, rfl, rfl⟩ | ⟨-, manifest, policy, event, -, -, hnew, rfl⟩
  · by_cases hj : existing.jobId.val = j
    · have hfound : t'.job? j = some existing := by
        unfold priorJob at hprior
        split at hprior
        · exact absurd hprior (by simp)
        · exact Table.find?_eq_some_iff.mpr ⟨List.mem_of_find?_eq_some hprior, hj⟩
      rw [if_pos (show existing.record.jobId.val = j from hj)]
      exact .moved hfound hfound .again
    · rw [if_neg (show ¬ existing.record.jobId.val = j from hj)]
      exact .kept rfl
  · generalize hrow : newJobRow c a (c.identifier (env.uuid "job" t.eventSequence)) fingerprint
      manifest policy env.time = row at hnew ⊢
    have hcontrol : row.control = .new row.maxAttempts (expiryPolicy row.retryPolicy) := by
      rw [← hrow]
      rfl
    by_cases hj : row.jobId.val = j
    · rw [if_pos (show (cursorChange event.sequence row).record.jobId.val = j from hj)]
      have hafter : t'.job? j = some (cursorChange event.sequence row) := by
        rw [hnew.job?, if_pos hj]
      exact .created (hj ▸ hnew.fresh) hafter hcontrol row.maxAttempts_pos
    · rw [if_neg (show ¬ (cursorChange event.sequence row).record.jobId.val = j from hj)]
      exact .kept (by rw [hnew.job?, if_neg hj])

theorem move_lease {owner : String} {kinds excluded : List String} {ttl : ℚ} {now : Option ℚ}
    {result : Option JobRecord}
    (h : (leaseNextJob H env owner kinds excluded ttl now).run t = .ok (result, t')) (j : String) :
    JobMove t t' j (actionAt j env (.leaseNextJob owner kinds excluded ttl now) (.leased result)) := by
  rcases leaseNextJob_eq_ok h with ⟨rfl, rfl⟩ |
    ⟨worker, row, event, hrow, hqueued, hopen, hallowed, -, hcommit, rfl⟩
  · exact .kept rfl
  · exact move_of_changed hcommit.changed
      (@Step.lease row.control worker _ hqueued hopen hallowed) j

theorem move_cancel {jobId reason : String} {revision : Option Int} {actor : Option WorkActor}
    {record : JobRecord}
    (h : (requestJobCancel H env jobId reason revision actor).run t = .ok (record, t'))
    (j : String) : JobMove t t' j (if jobId = j then some .requestCancel else none) := by
  rcases requestJobCancel_eq_ok h with ⟨row, hrow, hsettled, -, rfl⟩ |
    ⟨clean, row, event, hrow, hlive, hopen, hcommit, -⟩
  · by_cases hj : jobId = j
    · rw [if_pos hj]
      exact .moved (hj ▸ hrow) (hj ▸ hrow) (.cancelAgain hsettled)
    · rw [if_neg hj]
      exact .kept rfl
  · rw [← jobId_of_job? hrow]
    refine move_of_changed hcommit.changed ?_ j
    by_cases hidle : cancelsAtOnce row.status = true
    · have hstates : row.status = .queued ∨ row.status = .waiting ∨ row.status = .paused ∨
          row.status = .leased := by
        simpa [cancelsAtOnce, or_assoc] using hidle
      rw [hidle]
      exact Step.cancelNow (c := row.control) hstates hopen
    · have hrunning : row.status = .running := by
        revert hlive hidle
        cases row.status <;> decide
      rw [Bool.not_eq_true] at hidle
      rw [hidle]
      exact Step.cancelLater (c := row.control) hrunning hopen

theorem move_recover {now : Option ℚ} {records : List JobRecord}
    (h : (recoverExpiredJobLeases H env now).run t = .ok (records, t')) (j : String) :
    JobMove t t' j (if j ∈ records.map (fun r => r.jobId.val) then
      some (.recover (now.getD env.time)) else none) := by
  have hrec := recoverExpiredJobLeases_eq_ok h
  rw [hrec.jobIds]
  rcases hrec.job? (expiredJobs_nodup t _) j with
    ⟨row, hrow, hj, hfound, available, cursor, hafter⟩ | ⟨hnone, hsame⟩
  · rw [if_pos (hj ▸ List.mem_map_of_mem (f := fun r : JobRow => r.jobId.val) hrow)]
    exact .moved hfound hafter
      (Step.recover (c := row.control) (expired_control (mem_expiredJobs.mp hrow).2))
  · rw [if_neg]
    · exact .kept hsame
    · rintro hmem
      obtain ⟨row, hrow, hj⟩ := List.mem_map.mp hmem
      exact hnone row hrow hj

/-- The operations outside the jobs leave the jobs alone. -/
theorem move_outside {op : Op} {outcome : Outcome} (hjobs : t'.jobs = t.jobs)
    (hop : ∀ j, actionAt j env op outcome = none) (j : String) :
    JobMove t t' j (actionAt j env op outcome) := by
  rw [hop j]
  exact .of_jobs hjobs j

/-- **The simulation.**  A call that returns moves every job by the action it
stands for. -/
theorem move_of_perform {op : Op} {outcome : Outcome}
    (h : (perform H env op).run t = .ok (outcome, t')) (j : String) :
    JobMove t t' j (actionAt j env op outcome) := by
  cases op with
  | appendEvent a =>
      rw [perform] at h
      obtain ⟨event, hrun, rfl⟩ := Txn.run_map_eq_ok.mp h
      refine move_outside ?_ (fun _ => rfl) j
      obtain ⟨c, -, ⟨-, rfl, -⟩ | ⟨-, happ, -⟩⟩ := insertEvent_ok hrun
      · rfl
      · exact happ.jobs
  | createJob a =>
      rw [perform] at h
      obtain ⟨record, hrun, rfl⟩ := Txn.run_map_eq_ok.mp h
      exact move_create hrun j
  | leaseNextJob owner kinds excluded ttl now =>
      rw [perform] at h
      obtain ⟨result, hrun, rfl⟩ := Txn.run_map_eq_ok.mp h
      exact move_lease hrun j
  | startJob jobId owner epoch sync revision now =>
      rw [perform] at h
      obtain ⟨record, hrun, rfl⟩ := Txn.run_map_eq_ok.mp h
      exact move_of_commits (startJob_eq_ok hrun) (fun row held => .start (c := row.control) held) j
  | heartbeatJob jobId owner epoch ttl progress now =>
      rw [perform] at h
      obtain ⟨record, hrun, rfl⟩ := Txn.run_map_eq_ok.mp h
      obtain ⟨row, stored, hrow, hheld, hchanged, -⟩ := heartbeatJob_eq_ok hrun
      have hmove := move_of_changed hchanged (.heartbeat (c := row.control) hheld) j
      rwa [jobId_of_job? hrow] at hmove
  | updateJobProgress jobId progress owner epoch revision merge actor now =>
      rw [perform] at h
      obtain ⟨record, hrun, rfl⟩ := Txn.run_map_eq_ok.mp h
      obtain ⟨stored, hcommits⟩ := updateJobProgress_eq_ok hrun
      exact move_of_commits hcommits (fun row allowed => .progress (c := row.control) allowed) j
  | markJobWaiting jobId owner epoch progress now =>
      rw [perform] at h
      obtain ⟨record, hrun, rfl⟩ := Txn.run_map_eq_ok.mp h
      obtain ⟨stored, hcommits⟩ := markJobWaiting_eq_ok hrun
      exact move_of_commits hcommits (fun row held => .wait (c := row.control) held) j
  | wakeJob jobId revision available actor =>
      rw [perform] at h
      obtain ⟨record, hrun, rfl⟩ := Txn.run_map_eq_ok.mp h
      exact move_of_commits (wakeJob_eq_ok hrun) (fun row parked => .wake (c := row.control) parked) j
  | pauseJob jobId reason revision actor =>
      rw [perform] at h
      obtain ⟨record, hrun, rfl⟩ := Txn.run_map_eq_ok.mp h
      obtain ⟨stored, hcommits⟩ := pauseJob_eq_ok hrun
      exact move_of_commits hcommits (fun row idle => .pause (c := row.control) idle) j
  | requestJobCancel jobId reason revision actor =>
      rw [perform] at h
      obtain ⟨record, hrun, rfl⟩ := Txn.run_map_eq_ok.mp h
      exact move_cancel hrun j
  | acknowledgeJobCancel jobId owner epoch now =>
      rw [perform] at h
      obtain ⟨record, hrun, rfl⟩ := Txn.run_map_eq_ok.mp h
      rcases acknowledgeJobCancel_eq_ok hrun with ⟨row, hrow, hcancelled, hsame⟩ | hcommits
      · rw [hsame]
        have hmove : JobMove t t j
            (if jobId = j then some (.acknowledge owner epoch (now.getD env.time)) else none) := by
          by_cases hj : jobId = j
          · rw [if_pos hj]
            exact .moved (hj ▸ hrow) (hj ▸ hrow) (.acknowledged hcancelled)
          · rw [if_neg hj]
            exact .kept rfl
        exact hmove
      · exact move_of_commits hcommits
          (fun row guard => .acknowledge (c := row.control) guard.1 guard.2) j
  | finishJob jobId status owner epoch result diagnostics progress error now =>
      rw [perform] at h
      obtain ⟨record, hrun, rfl⟩ := Txn.run_map_eq_ok.mp h
      obtain ⟨target, hterminal, -, res, diag, clean, stored, hcommits⟩ := finishJob_eq_ok hrun
      have hstatus : record.status = target := by
        obtain ⟨row, event, -, -, -, hrecord⟩ := hcommits
        rw [hrecord]
        rfl
      have hmove := move_of_commits hcommits
        (fun row guard => .finish (c := row.control) guard.1 hterminal guard.2) j
      rw [← hstatus] at hmove
      exact hmove
  | commitResult jobId owner epoch before during publish =>
      rw [perform] at h
      obtain ⟨record, hrun, rfl⟩ := Txn.run_map_eq_ok.mp h
      obtain ⟨res, diag, clean, stored, row, event, hrow, -, hheld, hopen, hcommit, -⟩ :=
        commitResult_eq_ok hrun
      have hstep := @Step.finish row.control owner epoch env.finishTime .succeeded hheld
        (by decide) (by simp [JobRow.control, hopen])
      have hmove := move_of_changed hcommit.changed hstep j
      rw [jobId_of_job? hrow] at hmove
      exact hmove
  | releaseJob jobId owner epoch error delay unknown now =>
      rw [perform] at h
      obtain ⟨record, hrun, rfl⟩ := Txn.run_map_eq_ok.mp h
      obtain ⟨clean, hcommits⟩ := releaseJob_eq_ok hrun
      exact move_of_commits hcommits (fun row held => .release (c := row.control) held) j
  | retryJob jobId revision available reset actor =>
      rw [perform] at h
      obtain ⟨record, hrun, rfl⟩ := Txn.run_map_eq_ok.mp h
      exact move_of_commits (retryJob_eq_ok hrun)
        (fun row guard => .retry (c := row.control) guard.1 guard.2) j
  | recoverExpiredJobLeases now =>
      rw [perform] at h
      obtain ⟨records, hrun, rfl⟩ := Txn.run_map_eq_ok.mp h
      exact move_recover hrun j
  | claimOutbox consumer limit ttl now =>
      rw [perform] at h
      obtain ⟨items, hrun, rfl⟩ := Txn.run_map_eq_ok.mp h
      obtain ⟨owner, -, hclaimed⟩ := claimOutbox_eq_ok hrun
      exact move_outside hclaimed.onlyOutbox.jobs (fun _ => rfl) j
  | acknowledgeOutbox outboxId consumer epoch now =>
      rw [perform] at h
      obtain ⟨u, hrun, rfl⟩ := Txn.run_map_eq_ok.mp h
      obtain ⟨row, -, -, hmapped⟩ := acknowledgeOutbox_eq_ok hrun
      exact move_outside hmapped.jobs (fun _ => rfl) j
  | rejectOutbox outboxId consumer epoch error delay maxAttempts now =>
      rw [perform] at h
      obtain ⟨status, hrun, rfl⟩ := Txn.run_map_eq_ok.mp h
      obtain ⟨row, clean, -, -, hmapped, -⟩ := rejectOutbox_eq_ok hrun
      exact move_outside hmapped.jobs (fun _ => rfl) j
  | recoverExpiredOutbox now =>
      rw [perform] at h
      obtain ⟨n, hrun, rfl⟩ := Txn.run_map_eq_ok.mp h
      exact move_outside (recoverExpiredOutbox_eq_ok hrun).jobs (fun _ => rfl) j
  | reduceProjection name reducer initial batch =>
      rw [perform] at h
      obtain ⟨snapshot, hrun, rfl⟩ := Txn.run_map_eq_ok.mp h
      obtain ⟨clean, cursor, state, document, -, -, -, honly, -⟩ := reduceProjection_eq_ok hrun
      exact move_outside honly.jobs (fun _ => rfl) j
  | projection name =>
      rw [perform] at h
      obtain ⟨snapshot, hrun, rfl⟩ := Txn.run_map_eq_ok.mp h
      exact move_outside (by rw [projection_same hrun]) (fun _ => rfl) j

/-- A step of the repository moves every job by the action of its entry. -/
theorem move_of_step {call : Call} {r : Except Raised Outcome}
    (h : (repository H).step call t = (r, t')) (j : String) :
    JobMove t t' j (entryAction j (call, r)) := by
  cases r with
  | error e => exact .of_same (step_error h) j
  | ok outcome => exact move_of_perform (step_ok h) j

/-- A condition on steps of the repository forces a condition on steps of the
automaton. -/
def Forces (C : History → Tables → Call → Prop)
    (D : List JobAction → JobControl → JobAction → Prop) : Prop :=
  ∀ h t call r t' j row a, C h t call → (repository H).step call t = (r, t') →
    t.job? j = some row → entryAction j (call, r) = some a → D (actions j h) row.control a

/-- **Refinement over runs.**  Where the repository has a job, the automaton has
run over the actions of its history to the control part of its row; where it has
none, nothing was done to it. -/
theorem jobRun_of_run {C : History → Tables → Call → Prop}
    {D : List JobAction → JobControl → JobAction → Prop} (hCD : Forces (H := H) C D)
    {h : History} (hrun : (repository H).RunWhere C h t) (j : String) :
    (∀ row, t.job? j = some row → JobRun D (actions j h) row.control) ∧
      (t.job? j = none → actions j h = []) := by
  refine Machine.RunWhere.invariant (I := fun h t =>
    (∀ row, t.job? j = some row → JobRun D (actions j h) row.control) ∧
      (t.job? j = none → actions j h = [])) ?_ ?_ hrun
  · exact ⟨fun row hrow => absurd hrow (by simp [repository, Tables.initial, Tables.job?]),
      fun _ => rfl⟩
  · rintro h t call r t' - ⟨hsome, hnone⟩ hC hstep
    have hmove := move_of_step hstep j
    generalize ha : entryAction j (call, r) = a at hmove
    cases hmove with
    | kept same =>
        rw [actions_cons_of_none ha, same]
        exact ⟨hsome, hnone⟩
    | created fresh found control hpos =>
        rw [actions_cons_of_some ha, hnone fresh]
        refine ⟨fun row hrow => ?_, fun hno => absurd (hno.symm.trans found) (by simp)⟩
        rw [← Option.some.inj (found.symm.trans hrow), control]
        exact .create hpos
    | moved before after step =>
        rw [actions_cons_of_some ha]
        refine ⟨fun row hrow => ?_, fun hno => absurd (hno.symm.trans after) (by simp)⟩
        rw [← Option.some.inj (after.symm.trans hrow)]
        exact .step (hsome _ before) (hCD h t call r t' j _ _ hC hstep before ha) step

end WorkFabric
end VariantOne
