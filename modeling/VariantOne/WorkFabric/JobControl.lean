import VariantOne.WorkFabric.Models

/-!
# The job automaton

What a job is for, without the rows, the documents and the events: a unit of
work that is handed out under a lease, may be parked and woken, may be cancelled,
and is charged an attempt for every lease that is not a continuation of earlier
work.  `JobControl` is the part of a job that decides what may happen to it and
`Step` is what may happen, one constructor for each way an action can go.

The automaton is deterministic in its actions only up to the clock: an action
carries the lease it was issued under and the reading it was judged by.
`JobRun C` is a run of the automaton from creation on, with its actions newest
first, all of whose steps meet the condition `C`.
-/

namespace VariantOne
namespace WorkFabric

/-- The part of a job that decides what may happen to it. -/
structure JobControl where
  status : JobStatus
  cancelRequested : Bool
  continuation : Bool
  syncHandler : Bool
  attempt : Nat
  maxAttempts : Nat
  expiryPolicy : String
  leaseOwner : String
  leaseEpoch : Nat
  leaseExpiresAt : Option ℚ

/-- What can be done to a job.  A lease carries the epoch it was granted with and
whether it continues earlier work; what a worker does carries its lease and the
clock. -/
inductive JobAction where
  | create (maxAttempts : Nat) (expiryPolicy : String)
  | lease (owner : String) (epoch : Nat) (expires : ℚ) (continued : Bool)
  | start (owner : String) (epoch : Nat) (now : ℚ) (syncHandler : Bool)
  | heartbeat (owner : String) (epoch : Nat) (now expires : ℚ)
  | progress (owner : String) (epoch : Nat) (now : ℚ)
  | wait (owner : String) (epoch : Nat) (now : ℚ)
  | wake
  | pause
  | requestCancel
  | acknowledge (owner : String) (epoch : Nat) (now : ℚ)
  | finish (owner : String) (epoch : Nat) (now : ℚ) (target : JobStatus)
  | release (owner : String) (epoch : Nat) (now : ℚ) (unknownEffect : Bool)
  | retry (resetAttempts : Bool)
  | recover (now : ℚ)
  deriving DecidableEq

namespace JobControl

/-- A job that was just created. -/
def new (maxAttempts : Nat) (expiryPolicy : String) : JobControl where
  status := .queued
  cancelRequested := false
  continuation := false
  syncHandler := false
  attempt := 0
  maxAttempts := maxAttempts
  expiryPolicy := expiryPolicy
  leaseOwner := ""
  leaseEpoch := 0
  leaseExpiresAt := none

/-- The lease shown is the one the job is under, and it has not expired. -/
def Held (c : JobControl) (owner : String) (epoch : Nat) (now : ℚ)
    (allowed : List JobStatus) : Prop :=
  c.status ∈ allowed ∧ (c.leaseOwner = owner ∧ c.leaseEpoch = epoch) ∧
    now < c.leaseExpiresAt.getD 0

/-- The lease has run out. -/
def Expired (c : JobControl) (now : ℚ) : Prop :=
  c.status ∈ JobStatus.leasedStates ∧ ∃ expires, c.leaseExpiresAt = some expires ∧ expires ≤ now

/-- The job without a lease, in another state. -/
def unleased (c : JobControl) (status : JobStatus) : JobControl :=
  { c with status := status, leaseOwner := "", leaseExpiresAt := none }

/-- Where a handler that failed sends its job. -/
def releaseTarget (c : JobControl) (unknownEffect : Bool) : JobStatus :=
  if c.cancelRequested then .cancelled
  else if unknownEffect then .unknownEffect
  else if c.attempt < c.maxAttempts then .queued
  else .failed

/-- Where an expired lease sends its job. -/
def recoverTarget (c : JobControl) : JobStatus :=
  if c.cancelRequested then .cancelled
  else if c.status = .leased then if c.attempt < c.maxAttempts then .queued else .failed
  else if c.syncHandler then .unknownEffect
  else if c.expiryPolicy = "retry" ∧ c.attempt < c.maxAttempts then .queued
  else if c.expiryPolicy = "fail" then .failed
  else .unknownEffect

/-- **What can happen to a job.** -/
inductive Step : JobControl → JobAction → JobControl → Prop
  /-- A creation that names an existing job only reads it. -/
  | again {c maxAttempts policy} : Step c (.create maxAttempts policy) c
  | lease {c owner expires} (queued : c.status = .queued) (open_ : c.cancelRequested = false)
      (allowed : c.attempt < c.maxAttempts ∨ c.continuation = true) :
      Step c (.lease owner (c.leaseEpoch + 1) expires c.continuation)
        { c with
          status := .leased, leaseOwner := owner, leaseEpoch := c.leaseEpoch + 1,
          leaseExpiresAt := some expires,
          attempt := c.attempt + (if c.continuation then 0 else 1) }
  | start {c owner epoch now sync} (held : c.Held owner epoch now [.leased]) :
      Step c (.start owner epoch now sync)
        { c with status := .running, continuation := false, syncHandler := sync }
  | heartbeat {c owner epoch now expires} (held : c.Held owner epoch now JobStatus.leasedStates) :
      Step c (.heartbeat owner epoch now expires) { c with leaseExpiresAt := some expires }
  | progress {c owner epoch now}
      (allowed : c.Held owner epoch now JobStatus.leasedStates ∨
        c.status = .waiting ∨ c.status = .paused) :
      Step c (.progress owner epoch now) c
  | wait {c owner epoch now} (held : c.Held owner epoch now [.running]) :
      Step c (.wait owner epoch now) { c.unleased .waiting with continuation := true }
  | wake {c} (parked : c.status = .waiting ∨ c.status = .paused) :
      Step c .wake { c with status := .queued, cancelRequested := false }
  | pause {c} (idle : c.status = .queued ∨ c.status = .waiting) :
      Step c .pause { c with status := .paused }
  | cancelNow {c}
      (idle : c.status = .queued ∨ c.status = .waiting ∨ c.status = .paused ∨ c.status = .leased)
      (open_ : c.cancelRequested = false) :
      Step c .requestCancel { c.unleased .cancelled with cancelRequested := true }
  | cancelLater {c} (running : c.status = .running) (open_ : c.cancelRequested = false) :
      Step c .requestCancel { c with cancelRequested := true }
  | cancelAgain {c} (settled : c.status ∈ JobStatus.terminal ∨ c.cancelRequested = true) :
      Step c .requestCancel c
  | acknowledge {c owner epoch now} (held : c.Held owner epoch now JobStatus.leasedStates)
      (asked : c.cancelRequested = true) :
      Step c (.acknowledge owner epoch now) (c.unleased .cancelled)
  | acknowledged {c owner epoch now} (cancelled : c.status = .cancelled) :
      Step c (.acknowledge owner epoch now) c
  | finish {c owner epoch now target} (held : c.Held owner epoch now JobStatus.leasedStates)
      (terminal : target ∈ JobStatus.terminal)
      (allowed : ¬ (c.cancelRequested = true ∧ target = .succeeded)) :
      Step c (.finish owner epoch now target) (c.unleased target)
  | release {c owner epoch now unknown} (held : c.Held owner epoch now JobStatus.leasedStates) :
      Step c (.release owner epoch now unknown) (c.unleased (c.releaseTarget unknown))
  | retry {c reset} (ended : c.status = .failed ∨ c.status = .unknownEffect)
      (allowed : reset = true ∨ c.attempt < c.maxAttempts) :
      Step c (.retry reset)
        { c with
          status := .queued, attempt := if reset then 0 else c.attempt,
          cancelRequested := false, continuation := false }
  | recover {c now} (expired : c.Expired now) :
      Step c (.recover now)
        { c.unleased c.recoverTarget with
          continuation := c.status == .leased && c.recoverTarget == .queued }

/-- A run of the automaton, actions newest first. -/
inductive JobRun (C : List JobAction → JobControl → JobAction → Prop) :
    List JobAction → JobControl → Prop
  | create {maxAttempts policy} (hpos : 0 < maxAttempts) :
      JobRun C [.create maxAttempts policy] (.new maxAttempts policy)
  | step {as c a c'} (run : JobRun C as c) (met : C as c a) (hstep : Step c a c') :
      JobRun C (a :: as) c'

/-- **The run rule of the automaton.** -/
theorem JobRun.invariant {C : List JobAction → JobControl → JobAction → Prop}
    {I : List JobAction → JobControl → Prop}
    (hnew : ∀ m p, 0 < m → I [.create m p] (.new m p))
    (hstep : ∀ as c a c', JobRun C as c → I as c → C as c a → Step c a c' → I (a :: as) c')
    {as : List JobAction} {c : JobControl} (run : JobRun C as c) : I as c := by
  induction run with
  | create hpos => exact hnew _ _ hpos
  | step run met hs ih => exact hstep _ _ _ _ run ih met hs

theorem JobRun.mono {C D : List JobAction → JobControl → JobAction → Prop}
    (hCD : ∀ as c a, C as c a → D as c a) {as : List JobAction} {c : JobControl}
    (run : JobRun C as c) : JobRun D as c := by
  induction run with
  | create hpos => exact .create hpos
  | step _ met hs ih => exact .step ih (hCD _ _ _ met) hs

@[simp] theorem unleased_status (c : JobControl) (s : JobStatus) : (c.unleased s).status = s := rfl

@[simp] theorem unleased_cancelRequested (c : JobControl) (s : JobStatus) :
    (c.unleased s).cancelRequested = c.cancelRequested := rfl

@[simp] theorem unleased_continuation (c : JobControl) (s : JobStatus) :
    (c.unleased s).continuation = c.continuation := rfl

@[simp] theorem unleased_attempt (c : JobControl) (s : JobStatus) :
    (c.unleased s).attempt = c.attempt := rfl

@[simp] theorem unleased_maxAttempts (c : JobControl) (s : JobStatus) :
    (c.unleased s).maxAttempts = c.maxAttempts := rfl

@[simp] theorem unleased_leaseEpoch (c : JobControl) (s : JobStatus) :
    (c.unleased s).leaseEpoch = c.leaseEpoch := rfl

theorem releaseTarget_cases (c : JobControl) (unknown : Bool) :
    (c.cancelRequested = true ∧ c.releaseTarget unknown = .cancelled) ∨
    (c.cancelRequested = false ∧ c.releaseTarget unknown = .unknownEffect) ∨
    (c.cancelRequested = false ∧ c.attempt < c.maxAttempts ∧
      c.releaseTarget unknown = .queued) ∨
    (c.cancelRequested = false ∧ c.releaseTarget unknown = .failed) := by
  unfold releaseTarget
  by_cases ha : c.attempt < c.maxAttempts <;> cases c.cancelRequested <;> cases unknown <;>
    simp [ha]

/-- The ways recovery can go. -/
theorem recoverTarget_cases (c : JobControl) :
    (c.cancelRequested = true ∧ c.recoverTarget = .cancelled) ∨
    (c.cancelRequested = false ∧ c.attempt < c.maxAttempts ∧ c.recoverTarget = .queued) ∨
    (c.cancelRequested = false ∧ (c.status = .leased → ¬ c.attempt < c.maxAttempts) ∧
      c.recoverTarget = .failed) ∨
    (c.cancelRequested = false ∧ c.recoverTarget = .unknownEffect) := by
  unfold recoverTarget
  cases c.cancelRequested
  · by_cases hs : c.status = .leased
    · by_cases ha : c.attempt < c.maxAttempts <;> simp [hs, ha]
    · by_cases hy : c.syncHandler = true
      · simp [hs, hy]
      · by_cases hr : c.expiryPolicy = "retry" ∧ c.attempt < c.maxAttempts
        · simp [hs, hy, hr]
        · by_cases hf : c.expiryPolicy = "fail" <;> simp [hs, hy, hr, hf]
  · simp

end JobControl
end WorkFabric
end VariantOne
