import Mathlib.Data.List.Perm.Subperm
import VariantOne.Core.Dynamic
import VariantOne.WorkFabric.JobSpecs
import VariantOne.WorkFabric.Repository

/-!
# The job scheduler

A scheduler leases jobs from the repository and runs their handlers as tasks of one event loop.  Everything
that may happen between two of its awaits is a move of its own: the two ends of a repository call, a handler
that returns or raises, a cancellation, a task's callback, a registration, and any call that anyone else
makes on the repository.

* `books_step`: what every move keeps of the books the scheduler has of its tasks;
* `executions_bounded`: no more tasks than its capacity are under way, and no two of one job;
* `kind_bounded`: no more of a kind than the limit its admissions were judged by.

What the tasks do with their leases is the next module's.
-/

namespace VariantOne
namespace WorkFabric

/-! ## 1.  Handlers, limits, results -/

/-- A job handler, as far as the scheduler looks at it. -/
structure JobHandler where
  /-- `inspect.iscoroutinefunction(handler)` -/
  coroutine : Bool

/-- `ConcurrencyLimit` -/
inductive ConcurrencyLimit where
  | fixed (limit : Int)
  /-- A callable of the host. -/
  | resolver

/-- What a handler returns. -/
inductive HandlerValue where
  | result (result : JobResult)
  | value (value : PyValue)

/-- How a handler ends. -/
inductive HandlerOutcome where
  | returned (value : HandlerValue)
  /-- `RetryJob` -/
  | retry (error : String) (delay : ℚ)
  /-- `UnknownJobEffect` -/
  | unknownEffect (error : String)
  | cancelled
  /-- Any other exception: its type and its text. -/
  | failed (typeName error : String)

/-- What a scheduler was made with. -/
structure WorkScheduler where
  workerId : String
  maxConcurrency : Int
  leaseTtl : ℚ
  P : Interpreter
  /-- `dict(value)`, of a value that is true. -/
  dictOf : PyValue → Except Raised PyDict

/-- `max(1, int(max_concurrency))` -/
def WorkScheduler.capacity (W : WorkScheduler) : Nat := (max 1 W.maxConcurrency).toNat

/-- `_result` -/
def WorkScheduler.result (W : WorkScheduler) : HandlerValue → Except Raised JobResult
  | .result result => .ok result
  | .value .none => .ok ⟨"", "", []⟩
  | .value (.str s) => .ok ⟨s, "", []⟩
  | .value (.dict value) => do
      let progress ← match orElse (Dict.get? value "progress") (.dict []) with
        | .dict progress => .ok progress
        | other => W.dictOf other
      return ⟨W.P.field value "result_ref", W.P.field value "diagnostics_ref", progress⟩
  | .value _ => .error (typeError "job handler must return None, str, mapping, or JobResult")

/-- `float(policy.get(name) or default)` -/
def policyNumberOr (H : Host) (policy : List (String × Json)) (name : String) (default : ℚ) :
    Except Raised ℚ :=
  match Dict.get? policy name with
  | some v => if v.toPy.truthy then policyNumber H policy name else .ok default
  | none => .ok default

/-- `_retry_delay` -/
def retryDelay (H : Host) (job : JobRecord) : Except Raised ℚ := do
  let base ← policyNumberOr H job.retryPolicy "base_delay_s" (1 / 2)
  let cap ← policyNumberOr H job.retryPolicy "max_delay_s" 60
  return min (max (max 0 base) cap) (max 0 base * 2 ^ (job.attempt - 1))

/-- `type(exc).__name__` -/
def errorTypeName : ErrorKind → String
  | .workNotFound => "WorkNotFound"
  | .workConflict => "WorkConflict"
  | .leaseLost => "LeaseLost"
  | .invalidTransition => "InvalidTransition"
  | .repositoryCorrupt => "RepositoryCorrupt"
  | .strictJSON => "StrictJSONError"
  | .valueError => "ValueError"
  | .typeError => "TypeError"
  | .overflowError => "OverflowError"
  | .integrityError => "IntegrityError"
  | .cancelled => "CancelledError"
  | .runtimeError => "RuntimeError"

/-! ## 2.  One task -/

/-- How a task ended. -/
inductive Ending where
  /-- Its last call returned, or it found its job parked or at an end. -/
  | settled
  /-- `LeaseLost` was passed over. -/
  | leaseLost
  | cancelled
  | raised (e : Raised)

/-- Where a task is: what it does next. -/
inductive Phase where
  | created
  | starting (handler : Option JobHandler)
  | handling
  | requiring (value : HandlerValue)
  | acknowledging
  | finishing (result : JobResult)
  | releasing (error : String) (delay : ℚ) (unknownEffect : Bool)
  /-- The task was cancelled and asks whether its job was. -/
  | cancelling
  | acknowledgingCancel
  | ended (ending : Ending)

/-- A task of `_execute`. -/
structure Execution where
  leased : JobRecord
  /-- `context.job` -/
  job : JobRecord
  phase : Phase
  /-- The task's callback has run. -/
  called : Bool

namespace Execution

/-- The task goes on elsewhere. -/
def goto (x : Execution) (phase : Phase) : Execution := { x with phase := phase }

/-- The task has ended. -/
def finished (x : Execution) : Bool :=
  match x.phase with
  | .ended _ => true
  | _ => false

/-- The task gives its job back; a delay that cannot be computed ends it. -/
def giveBack (x : Execution) (error : String) (delay : Except Raised ℚ) : Execution :=
  match delay with
  | .ok delay => x.goto (.releasing error delay false)
  | .error e => x.goto (.ended (.raised e))

/-- `except Exception` -/
def failed (H : Host) (x : Execution) (typeName error : String) : Execution :=
  x.giveBack s!"{typeName}: {error}" (retryDelay H x.job)

/-- `except RetryJob` -/
def retried (H : Host) (x : Execution) (error : String) (delay : ℚ) : Execution :=
  x.giveBack error (if delay = 0 then retryDelay H x.job else .ok delay)

end Execution

/-- What happens to a task. -/
inductive ExecutionMove where
  /-- Its first step. -/
  | look
  | start (env : Env)
  /-- Its handler ends; the job is the context's, which the handler's own calls replace. -/
  | handled (job : JobRecord) (outcome : HandlerOutcome)
  | require (fault : Option Raised)
  | acknowledge (env : Env)
  | finish (env : Env)
  | release (env : Env)
  /-- A cancellation arrives while the task waits. -/
  | interrupt

/-- `require_job`; a fault is what the database raises. -/
def requireJob (t : Tables) (jobId : String) (fault : Option Raised) : Except Raised JobRecord :=
  match fault with
  | some e => .error e
  | none =>
      match t.job? jobId with
      | none => .error ⟨.workNotFound, s!"unknown work job: {jobId}"⟩
      | some row => .ok row.record

/-- What the job's current row means to a task whose handler returned. -/
def afterRequire (H : Host) (W : WorkScheduler) (x : Execution) (value : HandlerValue)
    (current : JobRecord) : Execution :=
  let x := { x with job := current }
  if current.status = .waiting ∨ current.status ∈ JobStatus.terminal then x.goto (.ended .settled)
  else if current.cancelRequested then x.goto .acknowledging
  else match W.result value with
    | .error e => x.failed H (errorTypeName e.kind) e.message
    | .ok result => x.goto (.finishing result)

/-- What a refused last call means. -/
def afterRefusal (x : Execution) (e : Raised) : Execution :=
  if e.kind = .leaseLost then x.goto (.ended .leaseLost) else x.goto (.ended (.raised e))

/-- `_execute`, from one await to the next. -/
def advance (H : Host) (W : WorkScheduler) (handlers : List (String × JobHandler)) (t : Tables)
    (x : Execution) : ExecutionMove → Execution × Tables
  | .look =>
      match x.phase with
      | .created =>
          -- The context refuses a job without a lease.
          if x.leased.leaseOwner = "" ∨ x.leased.leaseEpoch = 0 then
            (x.goto (.ended (.raised (valueError "job execution context requires a lease"))), t)
          else (x.goto (.starting (Dict.get? handlers x.leased.kind.val)), t)
      | _ => (x, t)
  | .start env =>
      match x.phase with
      | .starting handler =>
          match Txn.unitOfWork (startJob H env x.leased.jobId.val x.leased.leaseOwner x.leased.leaseEpoch
              (handler.any fun h => !h.coroutine) none none) env.fault t with
          | (.error e, t') => (x.failed H (errorTypeName e.kind) e.message, t')
          | (.ok started, t') =>
              match handler with
              | none =>
                  (({ x with job := started } : Execution).retried H
                    s!"no handler registered for {started.kind.val}" 5, t')
              | some _ => (({ x with job := started } : Execution).goto .handling, t')
      | _ => (x, t)
  | .handled job outcome =>
      match x.phase with
      | .handling =>
          let x := { x with job := job }
          match outcome with
          | .returned value => (x.goto (.requiring value), t)
          | .retry error delay => (x.retried H error delay, t)
          | .unknownEffect error => (x.goto (.releasing error 0 true), t)
          | .cancelled => (x.goto .cancelling, t)
          | .failed typeName error => (x.failed H typeName error, t)
      | _ => (x, t)
  | .require fault =>
      match x.phase with
      | .requiring value =>
          match requireJob t x.leased.jobId.val fault with
          | .error e => (x.failed H (errorTypeName e.kind) e.message, t)
          | .ok current => (afterRequire H W x value current, t)
      | .cancelling =>
          match requireJob t x.leased.jobId.val fault with
          | .error _ => (x.goto (.ended .cancelled), t)
          | .ok current =>
              if current.cancelRequested then (x.goto .acknowledgingCancel, t)
              else (x.goto (.ended .cancelled), t)
      | _ => (x, t)
  | .acknowledge env =>
      match x.phase with
      | .acknowledging =>
          match Txn.unitOfWork (acknowledgeJobCancel H env x.leased.jobId.val x.leased.leaseOwner
              x.leased.leaseEpoch none) env.fault t with
          | (.error e, t') => (x.failed H (errorTypeName e.kind) e.message, t')
          | (.ok _, t') => (x.goto (.ended .settled), t')
      | .acknowledgingCancel =>
          match Txn.unitOfWork (acknowledgeJobCancel H env x.leased.jobId.val x.leased.leaseOwner
              x.leased.leaseEpoch none) env.fault t with
          | (.error e, t') => (afterRefusal x e, t')
          | (.ok _, t') => (x.goto (.ended .settled), t')
      | _ => (x, t)
  | .finish env =>
      match x.phase with
      | .finishing result =>
          match Txn.unitOfWork (finishJob H env x.leased.jobId.val "succeeded" x.leased.leaseOwner
              x.leased.leaseEpoch result.resultRef result.diagnosticsRef
              (if result.progress = [] then none else some result.progress) "" env.time) env.fault t with
          | (.error e, t') => (x.failed H (errorTypeName e.kind) e.message, t')
          | (.ok _, t') => (x.goto (.ended .settled), t')
      | _ => (x, t)
  | .release env =>
      match x.phase with
      | .releasing error delay unknownEffect =>
          match Txn.unitOfWork (releaseJob H env x.leased.jobId.val x.leased.leaseOwner
              x.leased.leaseEpoch error delay unknownEffect none) env.fault t with
          | (.error e, t') => (afterRefusal x e, t')
          | (.ok _, t') => (x.goto (.ended .settled), t')
      | _ => (x, t)
  | .interrupt =>
      match x.phase with
      -- The task ends before its first step, or in a clause that catches no cancellation.
      | .created | .releasing .. | .cancelling | .acknowledgingCancel =>
          (x.goto (.ended .cancelled), t)
      | .starting _ | .requiring _ | .acknowledging | .finishing _ => (x.goto .cancelling, t)
      -- A task that awaits its handler passes the cancellation on to it.
      | .handling | .ended _ => (x, t)

/-! ## 3.  The scheduler -/

/-- Where `run_once` is, while it has the admission lock. -/
inductive Admission where
  | asking (remaining started : Nat)
  | leasing (remaining started : Nat) (kinds exclude : List String)
  | leased (remaining started : Nat) (job : JobRecord)

/-- The scheduler and the database it works on. -/
structure SchedulerState where
  tables : Tables
  handlers : List (String × JobHandler)
  limits : List (String × ConcurrencyLimit)
  /-- `_active`: the task of a job, by its place among all tasks. -/
  active : List (String × Nat)
  activeKinds : List (String × String)
  admission : Option Admission
  /-- Every task there ever was. -/
  executions : List Execution
  /-- The tasks that `shutdown` waits for. -/
  stopping : Option (List Nat)

/-- A scheduler without handlers, on an empty database. -/
def SchedulerState.initial : SchedulerState := ⟨.initial, [], [], [], [], none, [], none⟩

/-- What happens. -/
inductive SchedulerMove where
  /-- Anyone's call on the repository. -/
  | call (call : Call)
  | register (kind : String) (handler : JobHandler) (limit : Option ConcurrencyLimit)
  | unregister (kind : String)
  /-- `run_once` gets the admission lock. -/
  | enter
  /-- It asks which kinds are eligible; a resolver gives a number or raises. -/
  | ask (resolved : String → Option Int)
  | lease (env : Env)
  | track
  /-- `run_once` is cancelled where it waits. -/
  | abandon
  | execution (index : Nat) (move : ExecutionMove)
  /-- A task's callback runs. -/
  | done (index : Nat)
  | shutdown
  /-- The end of `shutdown`. -/
  | cleared

/-- What a move gives back. -/
inductive SchedulerReply where
  | none
  | repository (result : Except Raised Outcome)
  | raised (e : Raised)
  /-- What `run_once` returns. -/
  | count (started : Nat)

namespace SchedulerState

/-- The limits after a registration: one without a limit takes an earlier one back. -/
def withLimit (s : SchedulerState) (kind : String) :
    Option ConcurrencyLimit → List (String × ConcurrencyLimit)
  | none => Dict.restrict (· != kind) s.limits
  | some limit => Dict.set s.limits kind limit

/-- How many tasks of a kind are tracked: `Counter(self._active_kinds.values())`. -/
def activeCount (s : SchedulerState) (kind : String) : Nat := (s.activeKinds.map (·.2)).count kind

/-- The limit of a kind, if it has one. -/
def kindLimit (W : WorkScheduler) (s : SchedulerState) (resolved : String → Option Int) (kind : String) :
    Option Nat :=
  match Dict.get? s.limits kind with
  | none => none
  | some (.fixed limit) => some (max 1 (min (W.capacity : Int) limit)).toNat
  | some .resolver =>
      match resolved kind with
      | some limit => some (max 1 (min (W.capacity : Int) limit)).toNat
      | none => some 1

/-- `_eligible_kinds` -/
def eligibleKinds (W : WorkScheduler) (s : SchedulerState) (resolved : String → Option Int) :
    List String :=
  (Dict.keys s.handlers).filter fun kind =>
    match s.kindLimit W resolved kind with
    | none => true
    | some limit => decide (s.activeCount kind < limit)

/-- `_track` -/
def track (s : SchedulerState) (job : JobRecord) : SchedulerState :=
  { s with
    active := Dict.set s.active job.jobId.val s.executions.length
    activeKinds := Dict.set s.activeKinds job.jobId.val job.kind.val
    executions := s.executions ++ [⟨job, job, .created, false⟩] }

/-- The callback of a task, as far as the books go: it strikes out its own entry only. -/
def strike (s : SchedulerState) (jobId : String) (index : Nat) : SchedulerState :=
  if Dict.get? s.active jobId = some index then
    { s with
      active := Dict.restrict (· != jobId) s.active
      activeKinds := Dict.restrict (· != jobId) s.activeKinds }
  else s

end SchedulerState

open SchedulerState

/-- The admission after one more task was tracked. -/
def nextAdmission (remaining started : Nat) : Option Admission × SchedulerReply :=
  if remaining = 1 then (none, .count (started + 1))
  else (some (.asking (remaining - 1) (started + 1)), .none)

/-- One move. -/
def schedulerStep (H : Host) (W : WorkScheduler) (s : SchedulerState) :
    SchedulerMove → SchedulerReply × SchedulerState
  | .call call =>
      (.repository ((repository H).step call s.tables).1,
        { s with tables := ((repository H).step call s.tables).2 })
  | .register kind handler limit =>
      if strip kind = "" then (.raised (valueError "job handler kind is required"), s)
      else
        (.none,
          { s with
            handlers := Dict.set s.handlers (strip kind) handler
            limits := s.withLimit (strip kind) limit })
  | .unregister kind =>
      (.none,
        { s with
          handlers := Dict.restrict (· != kind) s.handlers
          limits := Dict.restrict (· != kind) s.limits })
  | .enter =>
      match s.admission with
      | some _ => (.none, s)
      | none =>
          if W.capacity ≤ s.active.length ∨ s.handlers = [] then (.count 0, s)
          else (.none, { s with admission := some (.asking (W.capacity - s.active.length) 0) })
  | .ask resolved =>
      match s.admission with
      | some (.asking remaining started) =>
          if s.eligibleKinds W resolved = [] then (.count started, { s with admission := none })
          else
            (.none,
              { s with
                admission := some (.leasing remaining started (s.eligibleKinds W resolved)
                  (Dict.keys s.active)) })
      | _ => (.none, s)
  | .lease env =>
      match s.admission with
      | some (.leasing remaining started kinds exclude) =>
          match Txn.unitOfWork (leaseNextJob H env W.workerId kinds exclude (max 6 W.leaseTtl) none)
              env.fault s.tables with
          | (.error e, t') => (.raised e, { s with tables := t', admission := none })
          | (.ok none, t') => (.count started, { s with tables := t', admission := none })
          | (.ok (some job), t') =>
              (.none, { s with tables := t', admission := some (.leased remaining started job) })
      | _ => (.none, s)
  | .track =>
      match s.admission with
      | some (.leased remaining started job) =>
          ((nextAdmission remaining started).2,
            { s.track job with admission := (nextAdmission remaining started).1 })
      | _ => (.none, s)
  | .abandon => (.none, { s with admission := none })
  | .execution index move =>
      match s.executions[index]? with
      | none => (.none, s)
      | some x =>
          (.none,
            { s with
              executions := s.executions.set index (advance H W s.handlers s.tables x move).1
              tables := (advance H W s.handlers s.tables x move).2 })
  | .done index =>
      match s.executions[index]? with
      | none => (.none, s)
      | some x =>
          if x.finished = true ∧ x.called = false then
            (.none,
              { s.strike x.leased.jobId.val index with
                executions := s.executions.set index { x with called := true } })
          else (.none, s)
  | .shutdown => (.none, { s with stopping := some (s.active.map (·.2)) })
  | .cleared =>
      match s.stopping with
      | none => (.none, s)
      | some waited =>
          -- `asyncio.gather` returns when every one of them has ended.
          if waited.all (fun index => (s.executions[index]?).all Execution.finished) then
            (.none, { s with active := [], activeKinds := [], stopping := none })
          else (.none, s)

/-- The scheduler as a machine. -/
def scheduler (H : Host) (W : WorkScheduler) :
    Machine SchedulerState SchedulerMove SchedulerReply where
  start := .initial
  step move s := schedulerStep H W s move

/-! ## 4.  What a move does to a task -/

section Advance

variable {H : Host} {W : WorkScheduler} {handlers : List (String × JobHandler)} {t : Tables}
variable {x : Execution}

/-- The tasks that a task may become: of the same lease, with the same callback to come. -/
def Execution.SameTask (x y : Execution) : Prop := y.leased = x.leased ∧ y.called = x.called

theorem sameTask_giveBack (error : String) (delay : Except Raised ℚ) :
    x.SameTask (x.giveBack error delay) := by
  unfold Execution.giveBack
  split
  · exact ⟨rfl, rfl⟩
  · exact ⟨rfl, rfl⟩

theorem sameTask_failed (typeName error : String) : x.SameTask (x.failed H typeName error) :=
  sameTask_giveBack _ _

theorem sameTask_retried (error : String) (delay : ℚ) : x.SameTask (x.retried H error delay) :=
  sameTask_giveBack _ _

theorem sameTask_afterRefusal (e : Raised) : x.SameTask (afterRefusal x e) := by
  unfold afterRefusal
  split
  · exact ⟨rfl, rfl⟩
  · exact ⟨rfl, rfl⟩

theorem sameTask_afterRequire (value : HandlerValue) (current : JobRecord) :
    x.SameTask (afterRequire H W x value current) := by
  unfold afterRequire
  dsimp only
  split
  · exact ⟨rfl, rfl⟩
  · split
    · exact ⟨rfl, rfl⟩
    · split
      · exact sameTask_failed (x := { x with job := current }) _ _
      · exact ⟨rfl, rfl⟩

/-- **A task keeps its lease**, whatever happens to it. -/
theorem sameTask_advance (move : ExecutionMove) : x.SameTask (advance H W handlers t x move).1 := by
  cases move with
  | look =>
      rw [advance]
      split
      · split
        · exact ⟨rfl, rfl⟩
        · exact ⟨rfl, rfl⟩
      · exact ⟨rfl, rfl⟩
  | start env =>
      rw [advance]
      split
      · split
        · exact sameTask_failed _ _
        · split
          · exact sameTask_retried (x := { x with job := _ }) _ _
          · exact ⟨rfl, rfl⟩
      · exact ⟨rfl, rfl⟩
  | handled job outcome =>
      rw [advance]
      split
      · cases outcome with
        | retry error delay => exact sameTask_retried (x := { x with job := job }) _ _
        | failed typeName error => exact sameTask_failed (x := { x with job := job }) _ _
        | returned | unknownEffect | cancelled => exact ⟨rfl, rfl⟩
      · exact ⟨rfl, rfl⟩
  | require fault =>
      rw [advance]
      split
      · split
        · exact sameTask_failed _ _
        · exact sameTask_afterRequire _ _
      · split
        · exact ⟨rfl, rfl⟩
        · split
          · exact ⟨rfl, rfl⟩
          · exact ⟨rfl, rfl⟩
      · exact ⟨rfl, rfl⟩
  | acknowledge env =>
      rw [advance]
      split
      · split
        · exact sameTask_failed _ _
        · exact ⟨rfl, rfl⟩
      · split
        · exact sameTask_afterRefusal _
        · exact ⟨rfl, rfl⟩
      · exact ⟨rfl, rfl⟩
  | finish env =>
      rw [advance]
      split
      · split
        · exact sameTask_failed _ _
        · exact ⟨rfl, rfl⟩
      · exact ⟨rfl, rfl⟩
  | release env =>
      rw [advance]
      split
      · split
        · exact sameTask_afterRefusal _
        · exact ⟨rfl, rfl⟩
      · exact ⟨rfl, rfl⟩
  | interrupt =>
      rw [advance]
      split <;> exact ⟨rfl, rfl⟩

/-- Nothing happens to a task that has ended. -/
theorem advance_finished (h : x.finished = true) (move : ExecutionMove) :
    advance H W handlers t x move = (x, t) := by
  obtain ⟨ending, hended⟩ : ∃ ending, x.phase = .ended ending := by
    unfold Execution.finished at h
    split at h
    · exact ⟨_, ‹_›⟩
    · exact absurd h (by simp)
  cases move <;> (rw [advance]; simp only [hended])

end Advance

/-! ## 5.  The books -/

section Books

variable {H : Host} {W : WorkScheduler} {s s' : SchedulerState} {env : Env} {t t' : Tables}

/-- Cleaning texts strips them. -/
theorem map_val_cleaned {texts : List String} {field : String} {required : Bool} {limit : Nat}
    {cleaned : List (Text required limit)}
    (h : (texts.mapM fun value => text value field required limit) = .ok cleaned) :
    cleaned.map (·.val) = texts.map strip := by
  induction texts generalizing cleaned with
  | nil =>
      obtain rfl := Except.ok.inj h
      rfl
  | cons value texts ih =>
      rw [List.mapM_cons] at h
      obtain ⟨first, hfirst, h⟩ := except_bind_eq_ok.mp h
      obtain ⟨rest, hrest, h⟩ := except_bind_eq_ok.mp h
      obtain rfl := Except.ok.inj h
      rw [List.map_cons, List.map_cons, ih hrest, val_of_text hfirst]

/-- **Whom a lease goes to**: a job of a kind that was asked for, and none that was excluded. -/
theorem leaseNextJob_admits {owner : String} {kinds excluded : List String} {ttl : ℚ} {now : Option ℚ}
    {job : JobRecord}
    (h : (leaseNextJob H env owner kinds excluded ttl now).run t = .ok (some job, t')) :
    job.jobId.val ∉ excluded ∧ (kinds = [] ∨ ∃ kind ∈ kinds, job.kind.val = strip kind) := by
  unfold leaseNextJob at h
  obtain ⟨owner', -, h⟩ := Txn.run_lift_bind_eq_ok.mp h
  obtain ⟨cleaned, hcleaned, h⟩ := Txn.run_lift_bind_eq_ok.mp h
  rw [Txn.run_read_bind] at h
  cases hnext : nextLeasable t (now.getD env.time) (cleaned.map (·.val)) excluded with
  | none =>
      rw [hnext] at h
      exact absurd (Txn.run_pure_eq_ok.mp h).1 (by simp)
  | some row =>
      rw [hnext] at h
      dsimp only at h
      obtain ⟨hmem, hleasable⟩ := mem_of_nextLeasable hnext
      have hrow : t.job? row.jobId.val = some row := Table.find?_key_of_mem hmem
      simp only [leasable, Bool.and_eq_true, Bool.or_eq_true, beq_iff_eq, Bool.not_eq_true',
        List.isEmpty_iff, List.contains_iff_mem] at hleasable
      obtain ⟨⟨⟨⟨⟨hqueued, -⟩, -⟩, -⟩, hkind⟩, hexcluded⟩ := hleasable
      obtain ⟨u, t₁, hcas, h⟩ := Txn.run_bind_eq_ok.mp h
      obtain ⟨record, t₂, hpub, h⟩ := Txn.run_bind_eq_ok.mp h
      obtain ⟨hrecord, -⟩ := Txn.run_pure_eq_ok.mp h
      obtain ⟨event, -, hrecord'⟩ := commit_eq_ok (Txn.run_bind_eq_ok.mpr ⟨u, t₁, hcas, hpub⟩) hrow
        (by simp [hqueued]) (fun _ => rfl) fun _ => by simp [leasePayload, Dict.get?_cons]
      obtain rfl := Option.some.inj hrecord
      rw [hrecord']
      rw [map_val_cleaned hcleaned] at hkind
      refine ⟨by simpa [cursorChange, leaseChange] using hexcluded, ?_⟩
      rcases hkind with hnil | hmem'
      · exact .inl (List.map_eq_nil_iff.mp hnil)
      · obtain ⟨kind, hkind, hval⟩ := List.mem_map.mp hmem'
        exact .inr ⟨kind, hkind, hval.symm⟩

/-- How many tasks the admission under way may still add. -/
def Admission.remaining : Admission → Nat
  | .asking remaining _ | .leasing remaining _ _ _ | .leased remaining _ _ => remaining

/-- **The books of the scheduler.** -/
structure Books (W : WorkScheduler) (s : SchedulerState) : Prop where
  wf : Dict.WF s.active
  kinds : Dict.keys s.activeKinds = Dict.keys s.active
  tracked : ∀ jobId index, Dict.get? s.active jobId = some index → ∃ x, s.executions[index]? = some x ∧
    x.leased.jobId.val = jobId ∧ Dict.get? s.activeKinds jobId = some x.leased.kind.val
  room : s.active.length ≤ W.capacity
  admits : ∀ a, s.admission = some a → 0 < a.remaining ∧ s.active.length + a.remaining ≤ W.capacity
  excludes : ∀ remaining started kinds exclude,
    s.admission = some (.leasing remaining started kinds exclude) → ∀ jobId ∈ Dict.keys s.active,
      jobId ∈ exclude
  fresh : ∀ remaining started job, s.admission = some (.leased remaining started job) →
    job.jobId.val ∉ Dict.keys s.active

theorem books_initial (W : WorkScheduler) : Books W .initial where
  wf := List.nodup_nil
  kinds := rfl
  tracked jobId index h := absurd h (by simp [SchedulerState.initial])
  room := Nat.zero_le _
  admits a h := absurd h (by simp [SchedulerState.initial])
  excludes remaining started kinds exclude h := absurd h (by simp [SchedulerState.initial])
  fresh remaining started job h := absurd h (by simp [SchedulerState.initial])

/-- The books do not depend on the tables and the registrations. -/
theorem Books.congr (h : Books W s) (hactive : s'.active = s.active)
    (hkinds : s'.activeKinds = s.activeKinds) (hexecutions : s'.executions = s.executions)
    (hadmission : s'.admission = s.admission) : Books W s' where
  wf := hactive ▸ h.wf
  kinds := by rw [hkinds, hactive, h.kinds]
  tracked := by
    rw [hactive, hkinds, hexecutions]
    exact h.tracked
  room := hactive ▸ h.room
  admits := by
    rw [hadmission, hactive]
    exact h.admits
  excludes := by
    rw [hadmission, hactive]
    exact h.excludes
  fresh := by
    rw [hadmission, hactive]
    exact h.fresh

/-- An admission may end at any time. -/
theorem Books.idle (h : Books W s) (hactive : s'.active = s.active)
    (hkinds : s'.activeKinds = s.activeKinds) (hexecutions : s'.executions = s.executions)
    (hadmission : s'.admission = none) : Books W s' where
  wf := hactive ▸ h.wf
  kinds := by rw [hkinds, hactive, h.kinds]
  tracked := by
    rw [hactive, hkinds, hexecutions]
    exact h.tracked
  room := hactive ▸ h.room
  admits a ha := absurd (hadmission.symm.trans ha) (by simp)
  excludes _ _ _ _ ha := absurd (hadmission.symm.trans ha) (by simp)
  fresh _ _ _ ha := absurd (hadmission.symm.trans ha) (by simp)

/-- A task may become another of the same lease. -/
theorem Books.replace (h : Books W s) {index : Nat} {x x' : Execution}
    (hx : s.executions[index]? = some x) (hleased : x'.leased = x.leased) :
    Books W { s with executions := s.executions.set index x' } where
  wf := h.wf
  kinds := h.kinds
  tracked jobId i hget := by
    obtain ⟨y, hy, hjob, hkind⟩ := h.tracked jobId i hget
    by_cases hi : index = i
    · subst hi
      obtain rfl := Option.some.inj (hx.symm.trans hy)
      refine ⟨x', ?_, by rw [hleased]; exact hjob, by rw [hleased]; exact hkind⟩
      rw [List.getElem?_set_self (List.getElem?_eq_some_iff.mp hx).1]
    · exact ⟨y, by rw [List.getElem?_set_ne hi]; exact hy, hjob, hkind⟩
  room := h.room
  admits := h.admits
  excludes := h.excludes
  fresh := h.fresh

theorem keys_restrict {κ α : Type} (p : κ → Bool) (d : List (κ × α)) :
    Dict.keys (Dict.restrict p d) = (Dict.keys d).filter p := by
  unfold Dict.keys Dict.restrict
  rw [List.filter_map]
  rfl

/-- An entry may be struck out. -/
theorem Books.strike (h : Books W s) (jobId : String) (index : Nat) : Books W (s.strike jobId index) := by
  unfold SchedulerState.strike
  split
  · have hlength : (Dict.restrict (· != jobId) s.active).length ≤ s.active.length :=
      List.length_filter_le _ _
    have hkeys : ∀ j, j ∈ Dict.keys (Dict.restrict (· != jobId) s.active) → j ∈ Dict.keys s.active := by
      intro j hj
      exact (Dict.mem_keys_restrict.mp hj).1
    exact
      { wf := h.wf.restrict (· != jobId)
        kinds := by
          dsimp only
          rw [keys_restrict, keys_restrict, h.kinds]
        tracked := fun j i hget => by
          dsimp only at hget ⊢
          rw [Dict.get?_restrict] at hget
          split at hget
          · rename_i hj
            obtain ⟨x, hx, hjob, hkind⟩ := h.tracked j i hget
            exact ⟨x, hx, hjob, by rw [Dict.get?_restrict, if_pos hj]; exact hkind⟩
          · exact absurd hget (by simp)
        room := hlength.trans h.room
        admits := fun a ha => ⟨(h.admits a ha).1,
          (Nat.add_le_add_right hlength _).trans (h.admits a ha).2⟩
        excludes := fun remaining started kinds exclude ha j hj =>
          h.excludes remaining started kinds exclude ha j (hkeys j hj)
        fresh := fun remaining started job ha hj => h.fresh remaining started job ha (hkeys _ hj) }
  · exact h

/-- **One more task is entered** while the admission has room for it. -/
theorem Books.track (h : Books W s) {remaining started : Nat} {job : JobRecord}
    (ha : s.admission = some (.leased remaining started job)) :
    Books W { s.track job with admission := (nextAdmission remaining started).1 } := by
  have hfresh := h.fresh remaining started job ha
  have hfresh' : job.jobId.val ∉ Dict.keys s.activeKinds := h.kinds ▸ hfresh
  obtain ⟨hpos, hroom⟩ := h.admits _ ha
  change 0 < remaining at hpos
  change s.active.length + remaining ≤ W.capacity at hroom
  have hactive : (s.track job).active = s.active ++ [(job.jobId.val, s.executions.length)] :=
    Dict.set_of_notMem hfresh
  have hkinds : (s.track job).activeKinds = s.activeKinds ++ [(job.jobId.val, job.kind.val)] :=
    Dict.set_of_notMem hfresh'
  have hadmission : ∀ a, (nextAdmission remaining started).1 = some a →
      ∃ started', a = .asking (remaining - 1) started' ∧ remaining ≠ 1 := by
    intro a hnext
    unfold nextAdmission at hnext
    split at hnext
    · exact absurd hnext (by simp)
    · exact ⟨_, (Option.some.inj hnext).symm, ‹_›⟩
  exact
    { wf := h.wf.set _ _
      kinds := by
        dsimp only
        rw [hactive, hkinds, Dict.keys_append, Dict.keys_append, h.kinds]
        rfl
      tracked := fun j i hget => by
        dsimp only at hget ⊢
        by_cases hj : job.jobId.val = j
        · subst hj
          have hself : Dict.get? (s.track job).active job.jobId.val = some s.executions.length :=
            Dict.get?_set_self _ _ _
          obtain rfl := Option.some.inj (hself.symm.trans hget)
          refine ⟨⟨job, job, .created, false⟩, ?_, rfl, Dict.get?_set_self _ _ _⟩
          exact List.getElem?_concat_length
        · have hother : Dict.get? (s.track job).active j = Dict.get? s.active j :=
            Dict.get?_set_of_ne hj _
          obtain ⟨x, hx, hjob, hkind⟩ := h.tracked j i (hother.symm.trans hget)
          refine ⟨x, ?_, hjob, (Dict.get?_set_of_ne hj _).trans hkind⟩
          show (s.executions ++ [_])[i]? = some x
          rw [List.getElem?_append_left (List.getElem?_eq_some_iff.mp hx).1]
          exact hx
      room := by
        dsimp only
        rw [hactive, List.length_append, List.length_singleton]
        omega
      admits := fun a hnext => by
        obtain ⟨started', rfl, hne⟩ := hadmission a hnext
        change 0 < remaining - 1 ∧ (s.track job).active.length + (remaining - 1) ≤ W.capacity
        rw [hactive, List.length_append, List.length_singleton]
        omega
      excludes := fun remaining' started' kinds exclude hnext => by
        obtain ⟨_, habsurd, -⟩ := hadmission _ hnext
        exact absurd habsurd (by simp)
      fresh := fun remaining' started' job' hnext => by
        obtain ⟨_, habsurd, -⟩ := hadmission _ hnext
        exact absurd habsurd (by simp) }

/-- **Every move keeps the books.** -/
theorem books_step (h : Books W s) (move : SchedulerMove) : Books W (schedulerStep H W s move).2 := by
  cases move with
  | call call => exact h.congr rfl rfl rfl rfl
  | register kind handler limit =>
      rw [schedulerStep]
      split
      · exact h
      · exact h.congr rfl rfl rfl rfl
  | unregister kind => exact h.congr rfl rfl rfl rfl
  | enter =>
      rw [schedulerStep]
      split
      · exact h
      · split
        · exact h
        · rename_i hroom
          rw [not_or, not_le] at hroom
          exact
            { wf := h.wf
              kinds := h.kinds
              tracked := h.tracked
              room := h.room
              admits := fun a ha => by
                obtain rfl := Option.some.inj ha
                change 0 < W.capacity - s.active.length ∧
                  s.active.length + (W.capacity - s.active.length) ≤ W.capacity
                omega
              excludes := fun _ _ _ _ ha => absurd ha (by simp)
              fresh := fun _ _ _ ha => absurd ha (by simp) }
  | ask resolved =>
      rw [schedulerStep]
      split
      · rename_i remaining started hadmission
        have hadmits := h.admits _ hadmission
        split
        · exact h.idle rfl rfl rfl rfl
        · exact
            { wf := h.wf
              kinds := h.kinds
              tracked := h.tracked
              room := h.room
              admits := fun a ha => by
                obtain rfl := Option.some.inj ha
                exact hadmits
              excludes := fun _ _ _ _ ha jobId hjob => by
                obtain ⟨-, -, -, rfl⟩ := Admission.leasing.inj (Option.some.inj ha)
                exact hjob
              fresh := fun _ _ _ ha => absurd ha (by simp) }
      · exact h
  | lease env =>
      rw [schedulerStep]
      split
      · rename_i remaining started kinds exclude hadmission
        have hadmits := h.admits _ hadmission
        split
        · exact h.idle rfl rfl rfl rfl
        · exact h.idle rfl rfl rfl rfl
        · rename_i job t' hcall
          exact
            { wf := h.wf
              kinds := h.kinds
              tracked := h.tracked
              room := h.room
              admits := fun a ha => by
                obtain rfl := Option.some.inj ha
                exact hadmits
              excludes := fun _ _ _ _ ha => absurd ha (by simp)
              fresh := fun _ _ _ ha hjob => by
                obtain ⟨-, -, rfl⟩ := Admission.leased.inj (Option.some.inj ha)
                have hleased := leaseNextJob_admits (Txn.unitOfWork_ok.mp hcall).1
                exact hleased.1 (h.excludes _ _ _ _ hadmission _ hjob) }
      · exact h
  | track =>
      rw [schedulerStep]
      split
      · exact h.track ‹_›
      · exact h
  | abandon => exact h.idle rfl rfl rfl rfl
  | execution index move =>
      rw [schedulerStep]
      split
      · exact h
      · rename_i x hx
        exact (h.replace hx (sameTask_advance move).1).congr rfl rfl rfl rfl
  | done index =>
      rw [schedulerStep]
      split
      · exact h
      · rename_i x hx
        split
        · have hstruck : (s.strike x.leased.jobId.val index).executions = s.executions := by
            unfold SchedulerState.strike
            split <;> rfl
          have hat : (s.strike x.leased.jobId.val index).executions[index]? = some x := hstruck ▸ hx
          have hbooks := (h.strike x.leased.jobId.val index).replace hat
            (rfl : ({ x with called := true } : Execution).leased = x.leased)
          rw [hstruck] at hbooks
          exact hbooks
        · exact h
  | shutdown => exact h.congr rfl rfl rfl rfl
  | cleared =>
      rw [schedulerStep]
      split
      · exact h
      · split
        · exact
            { wf := List.nodup_nil
              kinds := rfl
              tracked := fun jobId index hget => absurd hget (by simp)
              room := Nat.zero_le _
              admits := fun a ha => ⟨(h.admits a ha).1,
                (Nat.add_le_add_right (Nat.zero_le _) _).trans (h.admits a ha).2⟩
              excludes := fun _ _ _ _ _ jobId hjob => absurd hjob (by simp)
              fresh := fun _ _ _ _ => by simp }
        · exact h

/-! ## 6.  Tasks under way -/

/-- The tasks that have not ended. -/
def SchedulerState.underWay (s : SchedulerState) : List Execution :=
  s.executions.filter fun x => !x.finished

/-- The end of `shutdown` leaves no task behind: none was entered while it waited. -/
def OrderlyStop (s : SchedulerState) (move : SchedulerMove) : Prop :=
  move = .cleared → ∀ x ∈ s.executions, x.finished = true

/-- Every task under way is in the books. -/
def Entered (s : SchedulerState) : Prop :=
  ∀ (index : Nat) (x : Execution), s.executions[index]? = some x → x.finished = false →
    Dict.get? s.active x.leased.jobId.val = some index

theorem Entered.congr (h : Entered s) (hactive : s'.active = s.active)
    (hexecutions : s'.executions = s.executions) : Entered s' := by
  unfold Entered
  rw [hactive, hexecutions]
  exact h

/-- The task that is entered is not of a job that has one under way. -/
theorem Entered.track (h : Entered s) {job : JobRecord} (hfresh : job.jobId.val ∉ Dict.keys s.active) :
    Entered (s.track job) := by
  intro index x hx hunder
  change (s.executions ++ [(⟨job, job, .created, false⟩ : Execution)])[index]? = some x at hx
  change Dict.get? (Dict.set s.active job.jobId.val s.executions.length) _ = some index
  rcases Nat.lt_trichotomy index s.executions.length with hlt | rfl | hgt
  · rw [List.getElem?_append_left hlt] at hx
    have hget := h index x hx hunder
    have hne : job.jobId.val ≠ x.leased.jobId.val := by
      intro heq
      have hnone := Dict.get?_eq_none_iff.mpr hfresh
      rw [heq, hget] at hnone
      exact absurd hnone (by simp)
    rw [Dict.get?_set_of_ne hne, hget]
  · rw [List.getElem?_concat_length] at hx
    rw [← Option.some.inj hx]
    exact Dict.get?_set_self _ _ _
  · rw [List.getElem?_eq_none (by rw [List.length_append, List.length_singleton]; omega)] at hx
    exact absurd hx (by simp)

/-- A task that goes on stays in the books, and one that has ended may be struck out. -/
theorem Entered.replace (h : Entered s) {index : Nat} {x x' : Execution}
    (hx : s.executions[index]? = some x) (hleased : x'.leased = x.leased)
    (hfinished : x'.finished = false → x.finished = false) :
    Entered { s with executions := s.executions.set index x' } := by
  intro i y hy hunder
  change (s.executions.set index x')[i]? = some y at hy
  change Dict.get? s.active _ = some i
  by_cases hi : index = i
  · subst hi
    rw [List.getElem?_set_self (List.getElem?_eq_some_iff.mp hx).1] at hy
    obtain rfl := Option.some.inj hy
    rw [hleased]
    exact h index x hx (hfinished hunder)
  · rw [List.getElem?_set_ne hi] at hy
    exact h i y hy hunder

theorem Entered.strike (h : Entered s) {index : Nat} {x : Execution}
    (hx : s.executions[index]? = some x) (hended : x.finished = true) :
    Entered (s.strike x.leased.jobId.val index) := by
  unfold SchedulerState.strike
  split
  · rename_i hown
    intro i y hy hunder
    change s.executions[i]? = some y at hy
    change Dict.get? (Dict.restrict (· != x.leased.jobId.val) s.active) _ = some i
    have hget := h i y hy hunder
    have hne : y.leased.jobId.val ≠ x.leased.jobId.val := by
      intro heq
      rw [heq, hown] at hget
      obtain rfl := Option.some.inj hget
      obtain rfl := Option.some.inj (hx.symm.trans hy)
      exact absurd (hended.symm.trans hunder) (by simp)
    rw [Dict.get?_restrict, if_pos (by simpa using hne), hget]
  · exact h

/-- **Every move but a stop out of order keeps the tasks under way in the books.** -/
theorem entered_step (hbooks : Books W s) (h : Entered s) {move : SchedulerMove}
    (horderly : OrderlyStop s move) : Entered (schedulerStep H W s move).2 := by
  cases move with
  | call call => exact h.congr rfl rfl
  | register kind handler limit =>
      rw [schedulerStep]
      split <;> exact h.congr rfl rfl
  | unregister kind => exact h.congr rfl rfl
  | enter =>
      rw [schedulerStep]
      split
      · exact h
      · split <;> exact h.congr rfl rfl
  | ask resolved =>
      rw [schedulerStep]
      split
      · split <;> exact h.congr rfl rfl
      · exact h
  | lease env =>
      rw [schedulerStep]
      split
      · split <;> exact h.congr rfl rfl
      · exact h
  | track =>
      rw [schedulerStep]
      split
      · exact (h.track (hbooks.fresh _ _ _ ‹_›)).congr rfl rfl
      · exact h
  | abandon => exact h.congr rfl rfl
  | execution index move =>
      rw [schedulerStep]
      split
      · exact h
      · rename_i x hx
        refine (h.replace hx (sameTask_advance (H := H) (W := W) (t := s.tables) move).1 ?_).congr rfl rfl
        intro hunder
        by_contra hended
        rw [Bool.not_eq_false] at hended
        rw [advance_finished hended] at hunder
        exact absurd (hended.symm.trans hunder) (by simp)
  | done index =>
      rw [schedulerStep]
      split
      · exact h
      · rename_i x hx
        split
        · rename_i hended
          have hstruck : (s.strike x.leased.jobId.val index).executions = s.executions := by
            unfold SchedulerState.strike
            split <;> rfl
          have hat : (s.strike x.leased.jobId.val index).executions[index]? = some x := hstruck ▸ hx
          have hentered := (h.strike hx hended.1).replace hat
            (rfl : ({ x with called := true } : Execution).leased = x.leased) id
          rw [hstruck] at hentered
          exact hentered
        · exact h
  | shutdown => exact h.congr rfl rfl
  | cleared =>
      rw [schedulerStep]
      split
      · exact h
      · split
        · intro index x hx hunder
          have hended := horderly rfl x (List.mem_of_getElem? hx)
          exact absurd (hended.symm.trans hunder) (by simp)
        · exact h

/-- The jobs of the tasks under way are different, and all of them are in the books. -/
theorem Entered.nodup (h : Entered s) :
    (s.underWay.map fun x => x.leased.jobId.val).Nodup ∧
      (s.underWay.map fun x => x.leased.jobId.val) ⊆ Dict.keys s.active := by
  constructor
  · unfold SchedulerState.underWay List.Nodup
    rw [List.pairwise_map, List.pairwise_filter, List.pairwise_iff_getElem]
    intro i j hi hj hlt hx hy heq
    have hi' := h i _ (List.getElem?_eq_getElem hi) (by simpa using hx)
    have hj' := h j _ (List.getElem?_eq_getElem hj) (by simpa using hy)
    rw [heq, hj'] at hi'
    exact absurd (Option.some.inj hi') (by omega)
  · intro jobId hjob
    obtain ⟨x, hx, rfl⟩ := List.mem_map.mp hjob
    obtain ⟨hmem, hunder⟩ := List.mem_filter.mp hx
    obtain ⟨index, hat⟩ := List.getElem?_of_mem hmem
    exact Dict.mem_keys_of_mem (Dict.mem_of_get? (h index x hat (by simpa using hunder)))

theorem books_of_run {h : List (SchedulerMove × SchedulerReply)}
    {C : List (SchedulerMove × SchedulerReply) → SchedulerState → SchedulerMove → Prop}
    (hrun : (scheduler H W).RunWhere C h s) (hC : ∀ h s move, C h s move → OrderlyStop s move) :
    Books W s ∧ Entered s := by
  refine Machine.RunWhere.invariant (I := fun _ s => Books W s ∧ Entered s)
    ⟨books_initial W, fun index x hx => absurd hx (by simp [scheduler, SchedulerState.initial])⟩ ?_ hrun
  intro h s move r s' hrun ⟨hbooks, hentered⟩ hmeets hstep
  obtain rfl : (schedulerStep H W s move).2 = s' := congrArg Prod.snd hstep
  exact ⟨books_step hbooks move, entered_step hbooks hentered (hC _ _ _ hmeets)⟩

/-- **The capacity holds, and no job is run twice at a time.**  In every run of orderly stops, whatever
is registered, called, leased again or cancelled in between, at most as many tasks as the capacity are under
way, and no two of them are of one job. -/
theorem executions_bounded {h : List (SchedulerMove × SchedulerReply)}
    (hrun : (scheduler H W).RunWhere (fun _ s move => OrderlyStop s move) h s) :
    s.underWay.length ≤ W.capacity ∧ (s.underWay.map fun x => x.leased.jobId.val).Nodup := by
  obtain ⟨hbooks, hentered⟩ := books_of_run hrun fun _ _ _ => id
  obtain ⟨hnodup, hsubset⟩ := hentered.nodup
  have hlength := (List.subperm_of_subset hnodup hsubset).length_le
  rw [List.length_map] at hlength
  refine ⟨hlength.trans ?_, hnodup⟩
  have hkeys : (Dict.keys s.active).length = s.active.length := List.length_map _
  rw [hkeys]
  exact hbooks.room

/-- A worker for two jobs at a time, whose handlers return no mappings. -/
def pairWorker : WorkScheduler where
  workerId := "A"
  maxConcurrency := 2
  leaseTtl := 9
  P := ⟨fun _ => "", id, fun _ => none, id, fun _ => none, fun _ => .error (typeError "")⟩
  dictOf _ := .error (typeError "")

/-- Two jobs of one kind are there, of which one at a time may be worked on. -/
def firstOfTwo : List SchedulerMove :=
  [.call (callAt 0 (.createJob { kind := "k", ownerKind := "chat", ownerId := "o", jobId := "j" })),
    .call (callAt 0 (.createJob { kind := "k", ownerKind := "chat", ownerId := "o", jobId := "i" })),
    .register "k" ⟨true⟩ (some (.fixed 1)), .enter, .ask fun _ => none, .lease (.clock 0), .track,
    .ask fun _ => none, .execution 0 .look, .execution 0 (.start (.clock 1)), .enter]

/-- The history and the state after moves. -/
def afterMoves (moves : List SchedulerMove) : List (SchedulerMove × SchedulerReply) × SchedulerState :=
  (scheduler Host.plain pairWorker).exec ([], .initial) moves

theorem runWhere_afterMoves
    {C : List (SchedulerMove × SchedulerReply) → SchedulerState → SchedulerMove → Prop}
    (moves : List SchedulerMove) (hmoves : ∀ move ∈ moves, ∀ h s, C h s move) :
    (scheduler Host.plain pairWorker).RunWhere C (afterMoves moves).1 (afterMoves moves).2 :=
  Machine.RunWhere.exec .start _ hmoves

theorem underWay_firstOfTwo : (afterMoves firstOfTwo).2.underWay.length = 1 := by decide +kernel

/-- One task is under way, although there is room for another. -/
theorem executions_bounded_first :
    (afterMoves firstOfTwo).2.underWay.length = 1 ∧ (afterMoves firstOfTwo).2.underWay.length ≤ 2 ∧
      ((afterMoves firstOfTwo).2.underWay.map fun x => x.leased.jobId.val).Nodup :=
  ⟨underWay_firstOfTwo, executions_bounded (W := pairWorker)
    (runWhere_afterMoves firstOfTwo (by simp [firstOfTwo, OrderlyStop]))⟩

/-! ## 7.  Limits of kinds -/

/-- At every admission the kind has a limit, and one of at most `n`. -/
def LimitedTo (W : WorkScheduler) (kind : String) (n : Nat) (s : SchedulerState)
    (move : SchedulerMove) : Prop :=
  ∀ resolved, move = .ask resolved → kind ∈ Dict.keys s.handlers →
    ∃ limit, s.kindLimit W resolved kind = some limit ∧ limit ≤ n

/-- The books of one kind. -/
structure KindBooks (kind : String) (n : Nat) (s : SchedulerState) : Prop where
  stripped : ∀ key ∈ Dict.keys s.handlers, strip key = key
  count : s.activeCount kind ≤ n
  asked : ∀ remaining started kinds exclude,
    s.admission = some (.leasing remaining started kinds exclude) → kinds ≠ [] ∧
      (∀ key ∈ kinds, strip key = key) ∧ (kind ∈ kinds → s.activeCount kind < n)
  leased : ∀ remaining started job, s.admission = some (.leased remaining started job) →
    job.kind.val = kind → s.activeCount kind < n

section Kinds

variable {kind : String} {n : Nat}

theorem kindBooks_initial (kind : String) (n : Nat) : KindBooks kind n .initial where
  stripped key h := absurd h (by simp [SchedulerState.initial])
  count := Nat.zero_le _
  asked _ _ _ _ h := absurd h (by simp [SchedulerState.initial])
  leased _ _ _ h := absurd h (by simp [SchedulerState.initial])

/-- A kind may lose tasks, and an admission may go on or end. -/
theorem KindBooks.mono (h : KindBooks kind n s) (hhandlers : Dict.keys s'.handlers ⊆ Dict.keys s.handlers)
    (hcount : s'.activeCount kind ≤ s.activeCount kind)
    (hadmission : s'.admission = s.admission ∨ s'.admission = none ∨
      ∃ remaining started, s'.admission = some (.asking remaining started)) : KindBooks kind n s' where
  stripped key hkey := h.stripped key (hhandlers hkey)
  count := hcount.trans h.count
  asked remaining started kinds exclude ha := by
    rcases hadmission with hsame | hnone | ⟨_, _, hasking⟩
    · obtain ⟨hne, hstripped, hlt⟩ := h.asked remaining started kinds exclude (hsame.symm.trans ha)
      exact ⟨hne, hstripped, fun hkind => hcount.trans_lt (hlt hkind)⟩
    · exact absurd (hnone.symm.trans ha) (by simp)
    · exact absurd (hasking.symm.trans ha) (by simp)
  leased remaining started job ha hkind := by
    rcases hadmission with hsame | hnone | ⟨_, _, hasking⟩
    · exact hcount.trans_lt (h.leased remaining started job (hsame.symm.trans ha) hkind)
    · exact absurd (hnone.symm.trans ha) (by simp)
    · exact absurd (hasking.symm.trans ha) (by simp)

/-- Setting a key adds at most that key. -/
theorem keys_set_subset {α : Type} (d : List (String × α)) (k : String) (v : α) :
    Dict.keys (Dict.set d k v) ⊆ k :: Dict.keys d := by
  by_cases hk : k ∈ Dict.keys d
  · rw [Dict.keys_set_of_mem hk]
    exact List.subset_cons_self _ _
  · rw [Dict.set_of_notMem hk, Dict.keys_append]
    intro key hkey
    rcases List.mem_append.mp hkey with hmem | hmem
    · exact List.mem_cons_of_mem _ hmem
    · exact List.mem_cons.mpr (.inl (List.mem_singleton.mp hmem))

theorem KindBooks.register (h : KindBooks kind n s) (key : String) (handler : JobHandler)
    (limits : List (String × ConcurrencyLimit)) :
    KindBooks kind n { s with handlers := Dict.set s.handlers (strip key) handler, limits := limits } where
  stripped k hk := by
    rcases List.mem_cons.mp (keys_set_subset _ _ _ hk) with rfl | hmem
    · exact strip_strip key
    · exact h.stripped k hmem
  count := h.count
  asked := h.asked
  leased := h.leased

/-- What is eligible is below its limit. -/
theorem mem_eligibleKinds {resolved : String → Option Int} {key : String}
    (h : key ∈ s.eligibleKinds W resolved) : key ∈ Dict.keys s.handlers ∧
      ∀ limit, s.kindLimit W resolved key = some limit → s.activeCount key < limit := by
  obtain ⟨hmem, hbelow⟩ := List.mem_filter.mp h
  refine ⟨hmem, fun limit hlimit => ?_⟩
  rw [hlimit] at hbelow
  simpa using hbelow

theorem activeCount_track (hbooks : Books W s) {job : JobRecord}
    (hfresh : job.jobId.val ∉ Dict.keys s.active) :
    (s.track job).activeCount kind = s.activeCount kind + if job.kind.val = kind then 1 else 0 := by
  have hfresh' : job.jobId.val ∉ Dict.keys s.activeKinds := hbooks.kinds ▸ hfresh
  have hkinds : (s.track job).activeKinds = s.activeKinds ++ [(job.jobId.val, job.kind.val)] :=
    Dict.set_of_notMem hfresh'
  unfold SchedulerState.activeCount
  rw [hkinds, List.map_append, List.count_append, List.map_singleton, List.count_singleton]
  simp only [beq_iff_eq]

theorem activeCount_strike (jobId : String) (index : Nat) :
    (s.strike jobId index).activeCount kind ≤ s.activeCount kind := by
  unfold SchedulerState.strike
  split
  · exact (List.filter_sublist.map _).count_le _
  · exact le_rfl

/-- **Every move keeps the books of a kind** that is limited at every admission. -/
theorem kindBooks_step (hbooks : Books W s) (h : KindBooks kind n s) {move : SchedulerMove}
    (hlimited : LimitedTo W kind n s move) : KindBooks kind n (schedulerStep H W s move).2 := by
  cases move with
  | call call => exact h.mono (List.Subset.refl _) le_rfl (.inl rfl)
  | register key handler limit =>
      rw [schedulerStep]
      split
      · exact h
      · exact h.register key handler _
  | unregister key =>
      refine h.mono (fun k hk => ?_) le_rfl (.inl rfl)
      change k ∈ Dict.keys (Dict.restrict (· != key) s.handlers) at hk
      exact (Dict.mem_keys_restrict.mp hk).1
  | enter =>
      rw [schedulerStep]
      split
      · exact h
      · split
        · exact h
        · exact h.mono (List.Subset.refl _) le_rfl (.inr (.inr ⟨_, _, rfl⟩))
  | ask resolved =>
      rw [schedulerStep]
      split
      · split
        · exact h.mono (List.Subset.refl _) le_rfl (.inr (.inl rfl))
        · rename_i hne
          exact
            { stripped := h.stripped
              count := h.count
              asked := fun _ _ _ _ ha => by
                obtain ⟨-, -, rfl, -⟩ := Admission.leasing.inj (Option.some.inj ha)
                refine ⟨hne, fun key hkey => h.stripped key (mem_eligibleKinds hkey).1, fun hkind => ?_⟩
                obtain ⟨hmem, hbelow⟩ := mem_eligibleKinds hkind
                obtain ⟨limit, hlimit, hle⟩ := hlimited resolved rfl hmem
                exact (hbelow limit hlimit).trans_le hle
              leased := fun _ _ _ ha => absurd ha (by simp) }
      · exact h
  | lease env =>
      rw [schedulerStep]
      split
      · rename_i remaining started kinds exclude hadmission
        obtain ⟨hne, hstripped, hlt⟩ := h.asked _ _ _ _ hadmission
        split
        · exact h.mono (List.Subset.refl _) le_rfl (.inr (.inl rfl))
        · exact h.mono (List.Subset.refl _) le_rfl (.inr (.inl rfl))
        · rename_i job t' hcall
          exact
            { stripped := h.stripped
              count := h.count
              asked := fun _ _ _ _ ha => absurd ha (by simp)
              leased := fun _ _ _ ha hkind => by
                obtain ⟨-, -, rfl⟩ := Admission.leased.inj (Option.some.inj ha)
                -- The job is of a kind that was asked for, and the texts of those are as registered.
                rcases (leaseNextJob_admits (Txn.unitOfWork_ok.mp hcall).1).2 with hnil | ⟨key, hkey, heq⟩
                · exact absurd hnil hne
                · refine hlt ?_
                  rwa [← hkind, heq, hstripped key hkey] }
      · exact h
  | track =>
      rw [schedulerStep]
      split
      · rename_i remaining started job hadmission
        have hcount : (s.track job).activeCount kind =
            s.activeCount kind + if job.kind.val = kind then 1 else 0 :=
          activeCount_track hbooks (hbooks.fresh _ _ _ hadmission)
        have hbelow := h.leased _ _ _ hadmission
        have hadds : (s.track job).activeCount kind ≤ n := by
          rw [hcount]
          split
          · exact hbelow ‹_›
          · exact h.count
        have hnext : (nextAdmission remaining started).1 = none ∨
            ∃ remaining' started', (nextAdmission remaining started).1 =
              some (.asking remaining' started') := by
          unfold nextAdmission
          split
          · exact .inl rfl
          · exact .inr ⟨_, _, rfl⟩
        exact
          { stripped := h.stripped
            count := hadds
            asked := fun _ _ _ _ ha => by
              rcases hnext with hnone | ⟨_, _, hasking⟩
              · exact absurd (hnone.symm.trans ha) (by simp)
              · exact absurd (hasking.symm.trans ha) (by simp)
            leased := fun _ _ _ ha => by
              rcases hnext with hnone | ⟨_, _, hasking⟩
              · exact absurd (hnone.symm.trans ha) (by simp)
              · exact absurd (hasking.symm.trans ha) (by simp) }
      · exact h
  | abandon => exact h.mono (List.Subset.refl _) le_rfl (.inr (.inl rfl))
  | execution index move =>
      rw [schedulerStep]
      split
      · exact h
      · exact h.mono (List.Subset.refl _) le_rfl (.inl rfl)
  | done index =>
      rw [schedulerStep]
      split
      · exact h
      · rename_i x hx
        split
        · have hsame : (s.strike x.leased.jobId.val index).handlers = s.handlers ∧
              (s.strike x.leased.jobId.val index).admission = s.admission := by
            unfold SchedulerState.strike
            split <;> exact ⟨rfl, rfl⟩
          refine h.mono ?_ (activeCount_strike x.leased.jobId.val index) (.inl hsame.2)
          change Dict.keys (s.strike x.leased.jobId.val index).handlers ⊆ _
          rw [hsame.1]
          exact List.Subset.refl _
        · exact h
  | shutdown => exact h.mono (List.Subset.refl _) le_rfl (.inl rfl)
  | cleared =>
      rw [schedulerStep]
      split
      · exact h
      · split
        · exact h.mono (List.Subset.refl _) (Nat.zero_le _) (.inl rfl)
        · exact h

/-- The tasks of a kind under way are among those in the books. -/
theorem Entered.count_le (h : Entered s) (hbooks : Books W s) :
    (s.underWay.filter fun x => x.leased.kind.val = kind).length ≤ s.activeCount kind := by
  have hwf : Dict.WF s.activeKinds := by
    unfold Dict.WF
    rw [hbooks.kinds]
    exact hbooks.wf
  have hnodup := h.nodup.1.sublist
    ((List.filter_sublist (p := fun x : Execution => x.leased.kind.val = kind)).map _)
  have hsubset : ((s.underWay.filter fun x => x.leased.kind.val = kind).map fun x => x.leased.jobId.val) ⊆
      (s.activeKinds.filter fun e => e.2 == kind).map (·.1) := by
    intro jobId hjob
    obtain ⟨x, hx, rfl⟩ := List.mem_map.mp hjob
    obtain ⟨hunder, hkind⟩ := List.mem_filter.mp hx
    obtain ⟨hmem, hended⟩ := List.mem_filter.mp hunder
    obtain ⟨index, hat⟩ := List.getElem?_of_mem hmem
    obtain ⟨y, hy, -, hkinds⟩ := hbooks.tracked _ index (h index x hat (by simpa using hended))
    obtain rfl := Option.some.inj (hat.symm.trans hy)
    exact List.mem_map.mpr ⟨_, List.mem_filter.mpr ⟨Dict.mem_of_get? hkinds, by simpa using hkind⟩, rfl⟩
  have hlength := (List.subperm_of_subset hnodup hsubset).length_le
  rw [List.length_map, List.length_map] at hlength
  refine hlength.trans (le_of_eq ?_)
  unfold SchedulerState.activeCount
  rw [List.count_eq_countP, List.countP_map, List.countP_eq_length_filter]
  rfl

/-- **The limit of a kind holds.**  In every run of orderly stops at each of whose admissions the kind is
limited to at most `n`, at most `n` of its tasks are under way. -/
theorem kind_bounded {h : List (SchedulerMove × SchedulerReply)}
    (hrun : (scheduler H W).RunWhere (fun _ s move => OrderlyStop s move ∧ LimitedTo W kind n s move) h s) :
    (s.underWay.filter fun x => x.leased.kind.val = kind).length ≤ n := by
  have hall : (Books W s ∧ Entered s) ∧ KindBooks kind n s := by
    refine Machine.RunWhere.invariant (I := fun _ s => (Books W s ∧ Entered s) ∧ KindBooks kind n s)
      ⟨⟨books_initial W, fun index x hx => absurd hx (by simp [scheduler, SchedulerState.initial])⟩,
        kindBooks_initial kind n⟩ ?_ hrun
    intro h s move r s' hrun ⟨⟨hbooks, hentered⟩, hkind⟩ ⟨horderly, hlimited⟩ hstep
    obtain rfl : (schedulerStep H W s move).2 = s' := congrArg Prod.snd hstep
    exact ⟨⟨books_step hbooks move, entered_step hbooks hentered horderly⟩,
      kindBooks_step hbooks hkind hlimited⟩
  exact (hall.1.2.count_le hall.1.1).trans hall.2.count

/-- Whether a move is orderly and asks within a limit. -/
def asksWithin (W : WorkScheduler) (kind : String) (n : Nat) (s : SchedulerState) : SchedulerMove → Bool
  | .cleared => false
  | .ask resolved => (s.kindLimit W resolved kind).any fun limit => decide (limit ≤ n)
  | _ => true

theorem limitedTo_of_asksWithin {W : WorkScheduler} {kind : String} {n : Nat} {s : SchedulerState}
    {move : SchedulerMove} (h : asksWithin W kind n s move = true) :
    OrderlyStop s move ∧ LimitedTo W kind n s move := by
  constructor
  · rintro rfl
    exact absurd h (by simp [asksWithin])
  · rintro resolved rfl -
    change (s.kindLimit W resolved kind).any (fun limit => decide (limit ≤ n)) = true at h
    cases hlimit : s.kindLimit W resolved kind with
    | none => exact absurd h (by simp [hlimit])
    | some limit => exact ⟨limit, rfl, by simpa [hlimit] using h⟩

theorem kind_bounded_first :
    (afterMoves firstOfTwo).2.underWay.length = 1 ∧
      ((afterMoves firstOfTwo).2.underWay.filter fun x => x.leased.kind.val = "k").length ≤ 1 := by
  have hpasses : (scheduler Host.plain pairWorker).passes (asksWithin pairWorker "k" 1) .initial
      firstOfTwo = true := by
    decide +kernel
  have hrun : (scheduler Host.plain pairWorker).RunWhere
      (fun _ s move => OrderlyStop s move ∧ LimitedTo pairWorker "k" 1 s move) (afterMoves firstOfTwo).1
      (afterMoves firstOfTwo).2 :=
    Machine.RunWhere.exec_of_passes (fun _ _ _ => limitedTo_of_asksWithin) .start hpasses
  exact ⟨underWay_firstOfTwo, kind_bounded hrun⟩

end Kinds

end Books

end WorkFabric
end VariantOne
