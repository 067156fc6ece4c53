import VariantOne.Lib.Fence
import VariantOne.WorkFabric.JobRefinement

/-!
# Fencing by lease

A worker proves that a job is still its own by the name and the epoch of the
lease it was given.  This file shows what that proves.

## 1.  The job as a fenced resource

`JobControl.fence` reads a job as a resource with an epoch and, while the job is
leased or running, a holder.  Every step of the automaton moves the fence in one
of the three ways the fencing discipline allows (`fenced_step`): a lease takes the
next epoch, leaving the leased states gives the resource back, and everything
else leaves the fence alone.  So along every run the grants of a job have
strictly decreasing epochs from the newest on, and whoever a leased row names
was given the newest of them (`fenced_of_run`).

## 2.  What a context can do

`contextCall_held` goes through the mutations a `JobExecutionContext` offers.
Each of them compares the row with the context's lease before it writes, with one
exception: `update_job_progress` compares only when the job is leased or running,
so on a waiting or paused job any name and any epoch will do (`Unguarded`).

Outside that branch a mutation changes something only under the newest grant, on
a job that is leased or running under it, before it expires
(`context_mutation_fenced`).  Inside it, a superseded worker writes
(`superseded_progress`).
-/

namespace VariantOne
namespace WorkFabric

open JobControl

/-! ## 1.  The job as a fenced resource -/

/-- The lease an action grants. -/
def JobAction.grant? : JobAction → Option (String × Nat)
  | .lease owner epoch _ _ => some (owner, epoch)
  | _ => none

/-- The leases granted on a job, newest first. -/
def grants (j : String) (h : History) : List (String × Nat) :=
  (actions j h).filterMap JobAction.grant?

/-- A job as a fenced resource: it has a holder while it is leased or running. -/
def JobControl.fence (c : JobControl) : Fence String where
  epoch := c.leaseEpoch
  holder := if c.status ∈ JobStatus.leasedStates then some c.leaseOwner else none

theorem fence_of_leased {c : JobControl} (h : c.status ∈ JobStatus.leasedStates) :
    c.fence = ⟨c.leaseEpoch, some c.leaseOwner⟩ := by
  rw [fence, if_pos h]

theorem fence_of_free {c : JobControl} (h : c.status ∉ JobStatus.leasedStates) :
    c.fence = ⟨c.leaseEpoch, none⟩ := by
  rw [fence, if_neg h]

theorem releaseTarget_free (c : JobControl) (unknown : Bool) :
    c.releaseTarget unknown ∉ JobStatus.leasedStates := by
  rcases c.releaseTarget_cases unknown with ⟨-, h⟩ | ⟨-, h⟩ | ⟨-, -, h⟩ | ⟨-, h⟩ <;> rw [h] <;> decide

theorem recoverTarget_free (c : JobControl) : c.recoverTarget ∉ JobStatus.leasedStates := by
  rcases c.recoverTarget_cases with ⟨-, h⟩ | ⟨-, -, h⟩ | ⟨-, -, h⟩ | ⟨-, h⟩ <;> rw [h] <;> decide

theorem terminal_free {s : JobStatus} (h : s ∈ JobStatus.terminal) :
    s ∉ JobStatus.leasedStates := by
  revert h
  cases s <;> decide

/-- A step that grants nothing and leaves the job free gives the resource back. -/
theorem fenced_of_free {as : List JobAction} {c c' : JobControl} {a : JobAction}
    (h : Fenced (as.filterMap JobAction.grant?) c.fence) (hgrant : a.grant? = none)
    (hepoch : c'.leaseEpoch = c.leaseEpoch) (hfree : c'.status ∉ JobStatus.leasedStates) :
    Fenced ((a :: as).filterMap JobAction.grant?) c'.fence := by
  rw [List.filterMap_cons_none hgrant, fence_of_free hfree, hepoch]
  exact h.drop

/-- A step that grants nothing and shows the same fence keeps the discipline. -/
theorem fenced_of_same {as : List JobAction} {c c' : JobControl} {a : JobAction}
    (h : Fenced (as.filterMap JobAction.grant?) c.fence) (hgrant : a.grant? = none)
    (hfence : c'.fence = c.fence) : Fenced ((a :: as).filterMap JobAction.grant?) c'.fence := by
  rw [List.filterMap_cons_none hgrant, hfence]
  exact h

/-- **Every step keeps the fencing discipline.** -/
theorem fenced_step {as : List JobAction} {c c' : JobControl} {a : JobAction}
    (h : Fenced (as.filterMap JobAction.grant?) c.fence) (hstep : Step c a c') :
    Fenced ((a :: as).filterMap JobAction.grant?) c'.fence := by
  cases hstep with
  | lease queued _ _ => exact h.grant _
  | start held =>
      have hleased : c.status = .leased := by simpa using held.1
      refine fenced_of_same h rfl ?_
      rw [fence_of_leased (c := c) (by rw [hleased]; decide),
        fence_of_leased (by simp [JobStatus.leasedStates])]
  | again | progress | cancelAgain | acknowledged => exact fenced_of_same h rfl rfl
  | heartbeat => exact fenced_of_same h rfl rfl
  | cancelLater => exact fenced_of_same h rfl rfl
  | wait | wake | pause | cancelNow | acknowledge | retry =>
      exact fenced_of_free h rfl rfl (by simp [JobStatus.leasedStates])
  | finish _ terminal _ => exact fenced_of_free h rfl rfl (terminal_free terminal)
  | release => exact fenced_of_free h rfl rfl (releaseTarget_free c _)
  | recover => exact fenced_of_free h rfl rfl (recoverTarget_free c)

/-- Along every run of the automaton the grants are fenced. -/
theorem fenced_of_jobRun {C : List JobAction → JobControl → JobAction → Prop}
    {as : List JobAction} {c : JobControl} (run : JobRun C as c) :
    Fenced (as.filterMap JobAction.grant?) c.fence :=
  run.invariant (I := fun as c => Fenced (as.filterMap JobAction.grant?) c.fence)
    (fun _ _ _ => .initial) fun _ _ _ _ _ h _ hstep => fenced_step h hstep

variable {H : Host} {env : Env} {h : History} {t t' : Tables}

/-- **Along every run of the repository the grants of a job are fenced.** -/
theorem fenced_of_run (hrun : (repository H).Run h t) (j : String) :
    (∀ row, t.job? j = some row → Fenced (grants j h) row.control.fence) ∧
      (t.job? j = none → grants j h = []) := by
  obtain ⟨hsome, hnone⟩ := jobRun_of_run (D := fun _ _ _ => True)
    (fun _ _ _ _ _ _ _ _ _ _ _ _ => trivial) hrun.runWhere j
  refine ⟨fun row hrow => fenced_of_jobRun (hsome row hrow), fun hno => ?_⟩
  rw [grants, hnone hno]
  rfl

/-- Grants give strictly increasing epochs. -/
theorem grants_decreasing (hrun : (repository H).Run h t) (j : String) :
    (grants j h).Pairwise fun later earlier => earlier.2 < later.2 := by
  obtain ⟨hsome, hnone⟩ := fenced_of_run hrun j
  cases hrow : t.job? j with
  | none =>
      rw [hnone hrow]
      exact List.Pairwise.nil
  | some row => exact (hsome row hrow).decreasing

/-- Whoever a leased row names was given the newest lease. -/
theorem newest_of_leaseHeld (hrun : (repository H).Run h t) {j owner : String} {epoch : Nat}
    {now : ℚ} {row : JobRow} (hrow : t.job? j = some row)
    (hheld : LeaseHeld row owner epoch now JobStatus.leasedStates) :
    (grants j h).head? = some (owner, epoch) := by
  have hfence : row.control.fence = ⟨row.leaseEpoch, some row.leaseOwner⟩ :=
    fence_of_leased (c := row.control) hheld.1
  have hfenced := (fenced_of_run hrun j).1 row hrow
  rw [hfence] at hfenced
  rw [← hheld.2.1.1]
  exact hfenced.newest_of_held rfl hheld.2.1.2

/-! ## 2.  What a context can do -/

/-- The clock readings a mutation is judged by: `commit_result` checks the lease
before it publishes and again when it finishes the job. -/
def ContextCall.clocks (env : Env) : ContextCall → List ℚ
  | .commitResult _ => [env.time, env.finishTime]
  | _ => [env.time]

/-- The context's lease is the most recently granted one of its job, the job is
leased or running under it, and it has not expired. -/
structure CurrentLease (ctx : JobExecutionContext) (h : History) (t : Tables)
    (clocks : List ℚ) : Prop where
  newest : (grants ctx.jobId h).head? = some (ctx.leaseOwner, ctx.leaseEpoch)
  held : ∃ row, t.job? ctx.jobId = some row ∧ ∀ now ∈ clocks,
    LeaseHeld row ctx.leaseOwner ctx.leaseEpoch now JobStatus.leasedStates

/-- The call raised, or it acknowledged the cancellation of a job that is
cancelled already. -/
def Refused (t : Tables) (ctx : JobExecutionContext) (c : ContextCall)
    (r : Except Raised Outcome) : Prop :=
  (∃ e, r = .error e) ∨
    (c = .acknowledgeCancel ∧ ∃ row, t.job? ctx.jobId = some row ∧ row.status = .cancelled)

/-- The branch of `update_job_progress` that looks at no lease: the job is waiting
or paused. -/
def Unguarded (t : Tables) (ctx : JobExecutionContext) : ContextCall → Prop
  | .progress .. => ∃ row, t.job? ctx.jobId = some row ∧
      (row.status = .waiting ∨ row.status = .paused)
  | _ => False

theorem CommitsJob.held {jobId : String} {record : JobRecord} {guard : JobRow → Prop}
    {change : JobRow → JobRow} (h : CommitsJob t t' jobId record guard change) :
    ∃ row, t.job? jobId = some row ∧ guard row := by
  obtain ⟨row, event, hrow, hguard, -⟩ := h
  exact ⟨row, hrow, hguard⟩

/-- **A mutation that returns was made under the lease the row shows**, or it
changed nothing, or it took the branch that looks at no lease. -/
theorem contextCall_held {ctx : JobExecutionContext} {c : ContextCall} {outcome : Outcome}
    (hc : ¬ Unguarded t ctx c) (h : (perform H env (ctx.op c)).run t = .ok (outcome, t')) :
    (∃ row, t.job? ctx.jobId = some row ∧ ∀ now ∈ c.clocks env,
        LeaseHeld row ctx.leaseOwner ctx.leaseEpoch now JobStatus.leasedStates) ∨
      (c = .acknowledgeCancel ∧ t' = t ∧
        ∃ row, t.job? ctx.jobId = some row ∧ row.status = .cancelled) := by
  have honce : ∀ {row : JobRow} {allowed : List JobStatus},
      LeaseHeld row ctx.leaseOwner ctx.leaseEpoch env.time allowed →
      (∀ s ∈ allowed, s ∈ JobStatus.leasedStates) → ∀ now ∈ [env.time],
        LeaseHeld row ctx.leaseOwner ctx.leaseEpoch now JobStatus.leasedStates := by
    intro row allowed hheld hsub now hnow
    rw [List.mem_singleton.mp hnow]
    exact hheld.mono hsub
  cases c with
  | heartbeat progress =>
      rw [JobExecutionContext.op, perform] at h
      obtain ⟨record, hrun, -⟩ := Txn.run_map_eq_ok.mp h
      obtain ⟨row, stored, hrow, hheld, -⟩ := heartbeatJob_eq_ok hrun
      exact Or.inl ⟨row, hrow, honce hheld fun _ hs => hs⟩
  | progress value merge =>
      rw [JobExecutionContext.op, perform] at h
      obtain ⟨record, hrun, -⟩ := Txn.run_map_eq_ok.mp h
      obtain ⟨stored, hcommits⟩ := updateJobProgress_eq_ok hrun
      obtain ⟨row, hrow, hheld | hparked⟩ := hcommits.held
      · exact Or.inl ⟨row, hrow, honce hheld fun _ hs => hs⟩
      · exact absurd ⟨row, hrow, hparked⟩ hc
  | markWaiting progress =>
      rw [JobExecutionContext.op, perform] at h
      obtain ⟨record, hrun, -⟩ := Txn.run_map_eq_ok.mp h
      obtain ⟨stored, hcommits⟩ := markJobWaiting_eq_ok hrun
      obtain ⟨row, hrow, hheld⟩ := hcommits.held
      exact Or.inl ⟨row, hrow, honce hheld (by decide)⟩
  | commitResult publish =>
      rw [JobExecutionContext.op, perform] at h
      obtain ⟨record, hrun, -⟩ := Txn.run_map_eq_ok.mp h
      obtain ⟨_, _, _, _, row, _, hrow, hbefore, hafter, -⟩ := commitResult_eq_ok hrun
      refine Or.inl ⟨row, hrow, fun now hnow => ?_⟩
      rcases List.mem_pair.mp hnow with rfl | rfl
      · exact hbefore
      · exact hafter
  | finish status resultRef diagnosticsRef progress error =>
      rw [JobExecutionContext.op, perform] at h
      obtain ⟨record, hrun, -⟩ := Txn.run_map_eq_ok.mp h
      obtain ⟨target, -, -, _, _, _, _, hcommits⟩ := finishJob_eq_ok hrun
      obtain ⟨row, hrow, hheld, -⟩ := hcommits.held
      exact Or.inl ⟨row, hrow, honce hheld fun _ hs => hs⟩
  | release error retryDelay unknownEffect =>
      rw [JobExecutionContext.op, perform] at h
      obtain ⟨record, hrun, -⟩ := Txn.run_map_eq_ok.mp h
      obtain ⟨clean, hcommits⟩ := releaseJob_eq_ok hrun
      obtain ⟨row, hrow, hheld⟩ := hcommits.held
      exact Or.inl ⟨row, hrow, honce hheld fun _ hs => hs⟩
  | start syncHandler =>
      rw [JobExecutionContext.op, perform] at h
      obtain ⟨record, hrun, -⟩ := Txn.run_map_eq_ok.mp h
      obtain ⟨row, hrow, hheld⟩ := (startJob_eq_ok hrun).held
      exact Or.inl ⟨row, hrow, honce hheld (by decide)⟩
  | acknowledgeCancel =>
      rw [JobExecutionContext.op, perform] at h
      obtain ⟨record, hrun, -⟩ := Txn.run_map_eq_ok.mp h
      rcases acknowledgeJobCancel_eq_ok hrun with ⟨row, hrow, hcancelled, hsame⟩ | hcommits
      · exact Or.inr ⟨rfl, hsame, row, hrow, hcancelled⟩
      · obtain ⟨row, hrow, hheld, -⟩ := hcommits.held
        exact Or.inl ⟨row, hrow, honce hheld fun _ hs => hs⟩

/-- **Fencing.**  In every run, a mutation issued through a context outside the
branch that looks at no lease is made under the most recently granted lease of
the job, while the job is leased or running under it and before it expires;
otherwise it is refused and nothing changes.  Grants of every job have strictly
increasing epochs, so a superseded lease stays superseded. -/
theorem context_mutation_fenced {ctx : JobExecutionContext} {c : ContextCall}
    {r : Except Raised Outcome} (hrun : (repository H).Run h t)
    (hguarded : ¬ Unguarded t ctx c)
    (hstep : (repository H).step ⟨env, ctx.op c⟩ t = (r, t')) :
    (CurrentLease ctx h t (c.clocks env) ∨ (Refused t ctx c r ∧ t' = t)) ∧
      ∀ j, (grants j h).Pairwise fun later earlier => earlier.2 < later.2 := by
  refine ⟨?_, grants_decreasing hrun⟩
  cases r with
  | error e => exact Or.inr ⟨Or.inl ⟨e, rfl⟩, step_error hstep⟩
  | ok outcome =>
      rcases contextCall_held hguarded (step_ok hstep) with ⟨row, hrow, hheld⟩ | ⟨hack, hsame, hrow⟩
      · have hfirst : env.time ∈ c.clocks env := by cases c <;> simp [ContextCall.clocks]
        exact Or.inl ⟨newest_of_leaseHeld hrun hrow (hheld _ hfirst), row, hrow, hheld⟩
      · exact Or.inr ⟨Or.inr ⟨hack, hrow⟩, hsame⟩

/-- The context of the worker `A` under the first lease of the job `j`. -/
def contextA : JobExecutionContext :=
  ⟨"j", "A", 1, 2, false, false, by decide, by decide⟩

/-- While the job is leased to `A`, its progress is fenced. -/
theorem context_mutation_fenced_leased :
    (CurrentLease contextA (afterCalls leasedToA).1 (afterCalls leasedToA).2 [1] ∨
      (Refused (afterCalls leasedToA).2 contextA (.progress [("x", .int 1)] true)
          ((repository Host.plain).step (callAt 1 (contextA.op (.progress [("x", .int 1)] true)))
            (afterCalls leasedToA).2).1 ∧
        ((repository Host.plain).step (callAt 1 (contextA.op (.progress [("x", .int 1)] true)))
          (afterCalls leasedToA).2).2 = (afterCalls leasedToA).2)) ∧
      ∀ j, (grants j (afterCalls leasedToA).1).Pairwise fun later earlier =>
        earlier.2 < later.2 := by
  have hstatus : ((afterCalls leasedToA).2.job? "j").map (·.status) = some .leased := by
    decide +kernel
  refine @context_mutation_fenced _ (.clock 1) _ _ _ contextA (.progress [("x", .int 1)] true) _
    (run_afterCalls leasedToA) ?_ Prod.mk.eta.symm
  rintro ⟨row, hrow, hparked⟩
  rw [show (afterCalls leasedToA).2.job? "j" = some row from hrow, Option.map_some] at hstatus
  have hleased : row.status = .leased := Option.some.inj hstatus
  rcases hparked with h | h <;> exact absurd (hleased.symm.trans h) (by decide)

/-- The lease of `A` runs out and is recovered; `B` takes the next one, starts the
job and parks it. -/
def parkedByB : List (ℚ × Op) :=
  leasedToA ++
    [(10, .recoverExpiredJobLeases none), (10, .leaseNextJob "B" [] [] 2 none),
      (10, .startJob "j" "B" 2 false none none), (10, .markJobWaiting "j" "B" 2 none none)]

/-- **A superseded worker writes.**  The newest lease is `B`'s second one and the
job is waiting, yet progress reported by `A` under the first lease returns and
changes the row. -/
theorem superseded_progress :
    ∃ (h : History) (t t' : Tables) (outcome : Outcome),
      (repository Host.plain).Run h t ∧
      (repository Host.plain).step
        (callAt 11 (contextA.op (.progress [("x", .int 1)] true))) t = (.ok outcome, t') ∧
      (grants "j" h).head? = some ("B", 2) ∧
      (t.job? "j").map (fun row => (row.status, row.revision)) = some (.waiting, 6) ∧
      (t'.job? "j").map (fun row => (row.status, row.revision)) = some (.waiting, 7) := by
  have hfacts : (grants "j" (afterCalls parkedByB).1).head? = some ("B", 2) ∧
      ((afterCalls parkedByB).2.job? "j").map (fun row => (row.status, row.revision)) =
        some (.waiting, 6) ∧
      ((repository Host.plain).step (callAt 11 (contextA.op (.progress [("x", .int 1)] true)))
        (afterCalls parkedByB).2).1.isOk = true ∧
      (((repository Host.plain).step (callAt 11 (contextA.op (.progress [("x", .int 1)] true)))
        (afterCalls parkedByB).2).2.job? "j").map (fun row => (row.status, row.revision)) =
        some (.waiting, 7) := by
    decide +kernel
  obtain ⟨hgrants, hbefore, hok, hafter⟩ := hfacts
  obtain ⟨outcome, hstep⟩ := step_of_isOk hok
  exact ⟨_, _, _, outcome, run_afterCalls parkedByB, hstep, hgrants, hbefore, hafter⟩

end WorkFabric
end VariantOne
