import VariantOne.Lib.Machine
import VariantOne.WorkFabric.Jobs
import VariantOne.WorkFabric.Outbox
import VariantOne.WorkFabric.Projections

/-!
# The repository as a machine

Every call on the repository is one transaction: the body runs, and what it
raised from is rolled back.  A label of the machine is a call together with what
it takes from outside (`Env`); its outcome is what the caller sees.  Workers,
consumers, publishers and recovery are not modelled as processes: a run is any
sequence of calls, so it covers every interleaving of any number of them, with
any clock readings.

A job handler acts through a `JobExecutionContext`, which repeats the name and
the epoch of the lease it was made for.
-/

namespace VariantOne
namespace WorkFabric

/-- A call on the repository. -/
inductive Op where
  | appendEvent (a : EventArgs)
  | createJob (a : JobArgs)
  | leaseNextJob (leaseOwner : String) (kinds excludeJobIds : List String) (leaseTtl : ℚ)
      (now : Option ℚ)
  | startJob (jobId leaseOwner : String) (leaseEpoch : Nat) (syncHandler : Bool)
      (expectedRevision : Option Int) (now : Option ℚ)
  | heartbeatJob (jobId leaseOwner : String) (leaseEpoch : Nat) (leaseTtl : ℚ)
      (progress : Option PyDict) (now : Option ℚ)
  | updateJobProgress (jobId : String) (progress : PyDict) (leaseOwner : String)
      (leaseEpoch : Nat) (expectedRevision : Option Int) (merge : Bool)
      (actor : Option WorkActor) (now : Option ℚ)
  | markJobWaiting (jobId leaseOwner : String) (leaseEpoch : Nat) (progress : Option PyDict)
      (now : Option ℚ)
  | wakeJob (jobId : String) (expectedRevision : Option Int) (availableAt : Option ℚ)
      (actor : Option WorkActor)
  | pauseJob (jobId reason : String) (expectedRevision : Option Int) (actor : Option WorkActor)
  | requestJobCancel (jobId reason : String) (expectedRevision : Option Int)
      (actor : Option WorkActor)
  | acknowledgeJobCancel (jobId leaseOwner : String) (leaseEpoch : Nat) (now : Option ℚ)
  | finishJob (jobId status leaseOwner : String) (leaseEpoch : Nat)
      (resultRef diagnosticsRef : String) (progress : Option PyDict) (error : String)
      (now : Option ℚ)
  | commitResult (jobId leaseOwner : String) (leaseEpoch : Nat)
      (cancelledBefore cancelledDuring : Bool) (publish : Except Raised JobResult)
  | releaseJob (jobId leaseOwner : String) (leaseEpoch : Nat) (error : String)
      (retryDelay : ℚ) (unknownEffect : Bool) (now : Option ℚ)
  | retryJob (jobId : String) (expectedRevision : Option Int) (availableAt : Option ℚ)
      (resetAttempts : Bool) (actor : Option WorkActor)
  | recoverExpiredJobLeases (now : Option ℚ)
  | claimOutbox (consumerId : String) (limit : Int) (leaseTtl : ℚ) (now : Option ℚ)
  | acknowledgeOutbox (outboxId consumerId : String) (leaseEpoch : Nat) (now : Option ℚ)
  | rejectOutbox (outboxId consumerId : String) (leaseEpoch : Nat) (error : String)
      (retryDelay : ℚ) (maxAttempts : Int) (now : Option ℚ)
  | recoverExpiredOutbox (now : Option ℚ)
  | reduceProjection (name : String) (reducer : Reducer) (initial : Option PyDict)
      (batchSize : Int)
  | projection (name : String)

/-- What a call returns. -/
inductive Outcome where
  | event (event : WorkEvent)
  | job (record : JobRecord)
  | leased (record : Option JobRecord)
  | jobs (records : List JobRecord)
  | items (items : List OutboxItem)
  | unit
  | settled (status : OutboxStatus)
  | count (changed : Nat)
  | snapshot (snapshot : ProjectionSnapshot)

/-- A call and what it takes from outside. -/
structure Call where
  env : Env
  op : Op

/-- The transaction body of a call. -/
def perform (H : Host) (env : Env) : Op → Work Outcome
  | .appendEvent a => Outcome.event <$> appendEvent H env a
  | .createJob a => Outcome.job <$> createJob H env a
  | .leaseNextJob owner kinds excluded ttl now =>
      Outcome.leased <$> leaseNextJob H env owner kinds excluded ttl now
  | .startJob jobId owner epoch sync revision now =>
      Outcome.job <$> startJob H env jobId owner epoch sync revision now
  | .heartbeatJob jobId owner epoch ttl progress now =>
      Outcome.job <$> heartbeatJob H env jobId owner epoch ttl progress now
  | .updateJobProgress jobId progress owner epoch revision merge actor now =>
      Outcome.job <$>
        updateJobProgress H env jobId progress owner epoch revision merge actor now
  | .markJobWaiting jobId owner epoch progress now =>
      Outcome.job <$> markJobWaiting H env jobId owner epoch progress now
  | .wakeJob jobId revision available actor =>
      Outcome.job <$> wakeJob H env jobId revision available actor
  | .pauseJob jobId reason revision actor =>
      Outcome.job <$> pauseJob H env jobId reason revision actor
  | .requestJobCancel jobId reason revision actor =>
      Outcome.job <$> requestJobCancel H env jobId reason revision actor
  | .acknowledgeJobCancel jobId owner epoch now =>
      Outcome.job <$> acknowledgeJobCancel H env jobId owner epoch now
  | .finishJob jobId status owner epoch result diagnostics progress error now =>
      Outcome.job <$> finishJob H env jobId status owner epoch result diagnostics progress error
        (now.getD env.time)
  | .commitResult jobId owner epoch before during publish =>
      Outcome.job <$> commitResult H env jobId owner epoch before during publish
  | .releaseJob jobId owner epoch error delay unknown now =>
      Outcome.job <$> releaseJob H env jobId owner epoch error delay unknown now
  | .retryJob jobId revision available reset actor =>
      Outcome.job <$> retryJob H env jobId revision available reset actor
  | .recoverExpiredJobLeases now => Outcome.jobs <$> recoverExpiredJobLeases H env now
  | .claimOutbox consumer limit ttl now => Outcome.items <$> claimOutbox env consumer limit ttl now
  | .acknowledgeOutbox outboxId consumer epoch now =>
      (fun _ => Outcome.unit) <$> acknowledgeOutbox env outboxId consumer epoch now
  | .rejectOutbox outboxId consumer epoch error delay maxAttempts now =>
      Outcome.settled <$> rejectOutbox env outboxId consumer epoch error delay maxAttempts now
  | .recoverExpiredOutbox now => Outcome.count <$> recoverExpiredOutbox env now
  | .reduceProjection name reducer initial batch =>
      Outcome.snapshot <$> reduceProjection H env name reducer initial batch
  | .projection name => Outcome.snapshot <$> projection name

/-- The repository: one call is one unit of work. -/
def repository (H : Host) : Machine Tables Call (Except Raised Outcome) where
  start := .initial
  step call t := Txn.unitOfWork (perform H call.env call.op) call.env.fault t

/-- What was called and what came of it, newest first. -/
abbrev History := List (Call × Except Raised Outcome)

/-- A call that raises changes nothing. -/
theorem step_error {H : Host} {call : Call} {t t' : Tables} {e : Raised}
    (h : (repository H).step call t = (.error e, t')) : t' = t :=
  Txn.unitOfWork_error h

/-- A call that returns has committed its body. -/
theorem step_ok {H : Host} {env : Env} {op : Op} {t t' : Tables} {outcome : Outcome}
    (h : (repository H).step ⟨env, op⟩ t = (.ok outcome, t')) :
    (perform H env op).run t = .ok (outcome, t') :=
  (Txn.unitOfWork_ok.mp h).1

/-- The clock stands at `now` and identifiers are numbered. -/
def Env.clock (now : ℚ) : Env := ⟨now, now, fun _ => now, fun _ n => BitVec.ofNat 128 n, none⟩

/-- A call made at a given time. -/
def callAt (now : ℚ) (op : Op) : Call := ⟨.clock now, op⟩

/-- The history and the tables after calls at given times. -/
def afterCalls (calls : List (ℚ × Op)) : History × Tables :=
  (repository Host.plain).exec ([], .initial) (calls.map fun c => callAt c.1 c.2)

theorem run_afterCalls (calls : List (ℚ × Op)) :
    (repository Host.plain).Run (afterCalls calls).1 (afterCalls calls).2 :=
  Machine.Run.exec .start _

/-- A job that allows two attempts is created and leased to the worker `A`. -/
def leasedToA : List (ℚ × Op) :=
  [(0, .createJob
      { kind := "k", ownerKind := "chat", ownerId := "o", jobId := "j", maxAttempts := 2 }),
    (0, .leaseNextJob "A" [] [] 9 none)]

theorem runWhere_afterCalls {C : History → Tables → Call → Prop} (calls : List (ℚ × Op))
    (hcalls : ∀ c ∈ calls, ∀ h t, C h t (callAt c.1 c.2)) :
    (repository Host.plain).RunWhere C (afterCalls calls).1 (afterCalls calls).2 := by
  refine Machine.RunWhere.exec .start _ fun call hcall => ?_
  obtain ⟨c, hc, rfl⟩ := List.mem_map.mp hcall
  exact hcalls c hc

/-- A step whose outcome is not an exception has returned. -/
theorem step_of_isOk {H : Host} {env : Env} {op : Op} {t : Tables}
    (h : ((repository H).step ⟨env, op⟩ t).1.isOk = true) :
    ∃ outcome, (repository H).step ⟨env, op⟩ t =
      (.ok outcome, ((repository H).step ⟨env, op⟩ t).2) := by
  generalize (repository H).step ⟨env, op⟩ t = q at h ⊢
  obtain ⟨r, t'⟩ := q
  cases r with
  | error e => exact absurd h (by simp [Except.isOk, Except.toBool])
  | ok outcome => exact ⟨outcome, rfl⟩

/-! ## The context of a job handler -/

/-- `JobExecutionContext`: the lease a handler works under.  The constructor
refuses a job without one. -/
structure JobExecutionContext where
  jobId : String
  leaseOwner : String
  leaseEpoch : Nat
  leaseTtl : ℚ
  /-- Whether local cancellation was requested before and during a publication. -/
  cancelledBefore : Bool
  cancelledDuring : Bool
  owned : leaseOwner ≠ ""
  granted : leaseEpoch ≠ 0

/-- A mutation issued through a context. -/
inductive ContextCall where
  | heartbeat (progress : Option PyDict)
  | progress (value : PyDict) (merge : Bool)
  | markWaiting (progress : Option PyDict)
  | commitResult (publish : Except Raised JobResult)
  | finish (status resultRef diagnosticsRef : String) (progress : Option PyDict) (error : String)
  | release (error : String) (retryDelay : ℚ) (unknownEffect : Bool)
  | start (syncHandler : Bool)
  | acknowledgeCancel

/-- The repository call a context makes, at the clock. -/
def JobExecutionContext.op (ctx : JobExecutionContext) : ContextCall → Op
  | .heartbeat progress =>
      .heartbeatJob ctx.jobId ctx.leaseOwner ctx.leaseEpoch (max 2 ctx.leaseTtl) progress none
  | .progress value merge =>
      .updateJobProgress ctx.jobId value ctx.leaseOwner ctx.leaseEpoch none merge
        (some (.worker ctx.leaseOwner)) none
  | .markWaiting progress =>
      .markJobWaiting ctx.jobId ctx.leaseOwner ctx.leaseEpoch progress none
  | .commitResult publish =>
      .commitResult ctx.jobId ctx.leaseOwner ctx.leaseEpoch ctx.cancelledBefore
        ctx.cancelledDuring publish
  | .finish status result diagnostics progress error =>
      .finishJob ctx.jobId status ctx.leaseOwner ctx.leaseEpoch result diagnostics progress error
        none
  | .release error delay unknown =>
      .releaseJob ctx.jobId ctx.leaseOwner ctx.leaseEpoch error delay unknown none
  | .start sync => .startJob ctx.jobId ctx.leaseOwner ctx.leaseEpoch sync none none
  | .acknowledgeCancel =>
      .acknowledgeJobCancel ctx.jobId ctx.leaseOwner ctx.leaseEpoch none

end WorkFabric
end VariantOne
