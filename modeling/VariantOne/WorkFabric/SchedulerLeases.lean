import VariantOne.Lib.Raising
import VariantOne.WorkFabric.JobRefinement
import VariantOne.WorkFabric.Scheduler

/-!
# What a task does with its lease

A task works under the lease its job had when it was entered.  The lease may run out under it, be recovered
and be granted again, to this scheduler or another; the epoch tells the grants apart.

* `released_step`: a lease that was given up is never held again, whatever is called;
* `executions_settle`: a task that ended by itself holds its lease no longer, and no lease is worked on twice.

`LeaseBooks` is the invariant: the leases that were worked on are those that were granted, each to one
task, and a task that has ended has lost its lease or given it up.  It is checked against the moves of a
scheduler one by one, with everything else that can be called in between.
-/

namespace VariantOne
namespace WorkFabric

open JobControl

/-! ## 1.  Leases given up -/

/-- The lease of an epoch was granted, and the job is not under it. -/
def Released (t : Tables) (jobId : String) (epoch : Nat) : Prop :=
  ∃ row, t.job? jobId = some row ∧ epoch ≤ row.leaseEpoch ∧
    (row.leaseEpoch = epoch → row.status ∉ JobStatus.leasedStates)

/-- The lease of an epoch was granted. -/
def Granted (t : Tables) (jobId : String) (epoch : Nat) : Prop :=
  ∃ row, t.job? jobId = some row ∧ epoch ≤ row.leaseEpoch

/-- Only a lease advances the epoch, and only a lease puts a job into a leased state it was not in. -/
theorem step_epoch {c c' : JobControl} {a : JobAction} (h : Step c a c') :
    c.leaseEpoch ≤ c'.leaseEpoch ∧
      (c'.leaseEpoch = c.leaseEpoch → c'.status ∈ JobStatus.leasedStates →
        c.status ∈ JobStatus.leasedStates) := by
  cases h with
  | lease => exact ⟨Nat.le_succ _, fun heq => absurd heq (Nat.succ_ne_self _)⟩
  | start held => exact ⟨le_rfl, fun _ _ => by
      rw [List.mem_singleton.mp held.1]
      decide⟩
  | again | progress | cancelAgain | acknowledged | heartbeat | cancelLater =>
      exact ⟨le_rfl, fun _ => id⟩
  | wait | wake | pause | cancelNow | acknowledge | retry =>
      exact ⟨le_rfl, fun _ hleased => absurd hleased (by simp [JobStatus.leasedStates])⟩
  | finish held => exact ⟨le_rfl, fun _ _ => held.1⟩
  | release held => exact ⟨le_rfl, fun _ _ => held.1⟩
  | recover expired => exact ⟨le_rfl, fun _ _ => expired.1⟩

section Moves

variable {H : Host} {t t' : Tables} {jobId : String} {epoch : Nat}

/-- **A lease that was given up is never held again.** -/
theorem Released.move {a : Option JobAction} (h : Released t jobId epoch)
    (hmove : JobMove t t' jobId a) : Released t' jobId epoch := by
  obtain ⟨row, hrow, hle, hfree⟩ := h
  cases hmove with
  | kept same => exact ⟨row, same.trans hrow, hle, hfree⟩
  | created fresh => exact absurd (fresh.symm.trans hrow) (by simp)
  | @moved row₀ row' _ before after step =>
      obtain rfl := Option.some.inj (before.symm.trans hrow)
      obtain ⟨hepoch, hleased⟩ := step_epoch step
      change row₀.leaseEpoch ≤ row'.leaseEpoch at hepoch
      refine ⟨row', after, hle.trans hepoch, fun heq hstatus => ?_⟩
      have hsame : row₀.leaseEpoch = epoch := le_antisymm (hepoch.trans heq.le) hle
      exact hfree hsame (hleased (heq.trans hsame.symm) hstatus)

theorem Granted.move {a : Option JobAction} (h : Granted t jobId epoch)
    (hmove : JobMove t t' jobId a) : Granted t' jobId epoch := by
  obtain ⟨row, hrow, hle⟩ := h
  cases hmove with
  | kept same => exact ⟨row, same.trans hrow, hle⟩
  | created fresh => exact absurd (fresh.symm.trans hrow) (by simp)
  | @moved row₀ row' _ before after step =>
      obtain rfl := Option.some.inj (before.symm.trans hrow)
      exact ⟨row', after, hle.trans (step_epoch step).1⟩

/-- How the tables may move: by one call on the repository, or not at all. -/
def Called (H : Host) (t t' : Tables) : Prop :=
  t' = t ∨ ∃ call r, (repository H).step call t = (r, t')

theorem Called.move (h : Called H t t') (jobId : String) : ∃ a, JobMove t t' jobId a := by
  rcases h with rfl | ⟨call, r, hstep⟩
  · exact ⟨none, .of_same rfl jobId⟩
  · exact ⟨_, move_of_step hstep jobId⟩

theorem Released.called (h : Released t jobId epoch) (hcalled : Called H t t') :
    Released t' jobId epoch := by
  obtain ⟨a, hmove⟩ := hcalled.move jobId
  exact h.move hmove

theorem Granted.called (h : Granted t jobId epoch) (hcalled : Called H t t') :
    Granted t' jobId epoch := by
  obtain ⟨a, hmove⟩ := hcalled.move jobId
  exact h.move hmove

/-- A transaction that is one of the repository's calls. -/
theorem called_of_unitOfWork {α : Type} {body : Work α} {wrap : α → Outcome} {env : Env} (op : Op)
    (hop : perform H env op = wrap <$> body) {r : Except Raised α}
    (h : Txn.unitOfWork body env.fault t = (r, t')) : Called H t t' := by
  cases r with
  | error e => exact .inl (Txn.unitOfWork_error h)
  | ok a =>
      obtain ⟨hrun, hfault⟩ := Txn.unitOfWork_ok.mp h
      refine .inr ⟨⟨env, op⟩, .ok (wrap a), Txn.unitOfWork_ok.mpr ⟨?_, hfault⟩⟩
      change (perform H env op).run t = _
      rw [hop]
      exact Txn.run_map_eq_ok.mpr ⟨a, hrun, rfl⟩

end Moves

/-! ## 2.  Who is told that its lease is lost -/

/-- Anything but `LeaseLost`. -/
def NotLeaseLost (e : Raised) : Prop := e.kind ≠ .leaseLost

section Raising

variable {H : Host} {env : Env}

theorem raises_text (value field : String) (required : Bool) (limit : Nat) :
    ExceptRaises (text value field required limit) NotLeaseLost := by
  unfold text
  split
  · exact .error (by simp [NotLeaseLost, valueError])
  · split
    · exact .error (by simp [NotLeaseLost, valueError])
    · split
      · exact .error (by simp [NotLeaseLost, valueError])
      · exact .ok _

mutual

theorem raises_strictJsonValue (v : PyValue) (path : String) :
    ExceptRaises (strictJsonValue v path) NotLeaseLost := by
  cases v with
  | none | bool | int | float | str => exact .ok _
  | nonFinite | bytes | foreign => exact .error (by simp [NotLeaseLost, strictJSONError])
  | list vs => exact (raises_strictItems vs path 0).map
  | tuple vs => exact (raises_strictItems vs path 0).map
  | dict es => exact (raises_strictEntries es path).map
  | record v => exact raises_strictJsonValue v path

theorem raises_strictItems (vs : List PyValue) (path : String) (index : Nat) :
    ExceptRaises (strictItems vs path index) NotLeaseLost := by
  cases vs with
  | nil => exact .ok _
  | cons v vs =>
      have hvalue := raises_strictJsonValue v s!"{path}[{index}]"
      rw [strictItems]
      split
      · rename_i e he
        exact .error (hvalue e he)
      · exact (raises_strictItems vs path (index + 1)).map

theorem raises_strictEntries (es : PyDict) (path : String) :
    ExceptRaises (strictEntries es path) NotLeaseLost := by
  cases es with
  | nil => exact .ok _
  | cons e es =>
      obtain ⟨k, v⟩ := e
      have hvalue := raises_strictJsonValue v s!"{path}.{k}"
      rw [strictEntries]
      split
      · rename_i e he
        exact .error (hvalue e he)
      · exact (raises_strictEntries es path).map

end

theorem raises_inlineJson (value : PyDict) : ExceptRaises (inlineJson H value) NotLeaseLost := by
  have hentries := raises_strictEntries value "$"
  unfold inlineJson
  split
  · rename_i e he
    exact .error (hentries e he)
  · split
    · exact .ok _
    · exact .error (by simp [NotLeaseLost, inlineTooLarge])

theorem raises_cleanEvent (a : EventArgs) : ExceptRaises (cleanEvent a) NotLeaseLost := by
  have hactor : ExceptRaises (cleanActor a.actor) NotLeaseLost :=
    (raises_text _ _ _ _).bind fun _ => (raises_text _ _ _ _).bind fun _ => .ok _
  exact (raises_text _ _ _ _).bind fun _ => (raises_text _ _ _ _).bind fun _ =>
    (raises_text _ _ _ _).bind fun _ => (raises_text _ _ _ _).bind fun _ => hactor.bind fun _ =>
      (raises_text _ _ _ _).bind fun _ => (raises_text _ _ _ _).bind fun _ =>
        (raises_text _ _ _ _).bind fun _ => .ok _

theorem raises_insertEvent (a : EventArgs) : (insertEvent H env a).Raises NotLeaseLost := by
  have hfingerprint : ∀ c version, ExceptRaises (eventFingerprint H c version) NotLeaseLost :=
    fun c version => (raises_strictJsonValue _ _).map
  have hevent : ∀ event, (insertEventRow event).Raises NotLeaseLost := by
    intro event
    refine .bind .read fun t => ?_
    split
    · exact .raise (by simp [NotLeaseLost, uniqueFailed])
    · exact .modify _
  have houtbox : ∀ row, (insertOutboxRow row).Raises NotLeaseLost := by
    intro row
    refine .bind .read fun t => ?_
    split
    · exact .raise (by simp [NotLeaseLost, uniqueFailed])
    · exact .modify _
  unfold insertEvent
  refine .bind (.lift (raises_cleanEvent a)) fun c => .bind .read fun t => ?_
  split
  · exact .bind (.lift (hfingerprint _ _)) fun candidate =>
      .bind (.ensure (by simp [NotLeaseLost, eventKeyReused])) fun _ => .pure _
  · exact .bind (.ensure (by simp [NotLeaseLost, versionChanged])) fun _ =>
      .bind (.ensure (by simp [NotLeaseLost, versionSkipped])) fun _ =>
        .bind (.lift (hfingerprint _ _)) fun fingerprint =>
          .bind (.lift (raises_inlineJson _)) fun _ => .bind (.lift (raises_inlineJson _)) fun payload =>
            .bind (hevent _) fun _ => .bind (houtbox _) fun _ => .pure _

theorem raises_returnJob (jobId : String) : (returnJob jobId).Raises NotLeaseLost := by
  have hrow : (jobRow jobId).Raises NotLeaseLost := by
    refine .bind .read fun t => ?_
    split
    · exact .raise (by simp [NotLeaseLost])
    · exact .pure _
  exact .bind hrow fun _ => .pure _

theorem raises_updateJobRows (jobId : String) (cond : JobRow → Bool) (change : JobRow → JobRow)
    (hchange : ∀ r, (change r).jobId.val = r.jobId.val) :
    (updateJobRows jobId cond change hchange).Raises NotLeaseLost :=
  .bind .read fun _ => .bind (.modify _) fun _ => .pure _

theorem raises_publishJob (jobId eventType : String) (actor : Option WorkActor)
    (payload : JobRow → PyDict) : (publishJob H env jobId eventType actor payload).Raises NotLeaseLost := by
  have hrow : (jobRow jobId).Raises NotLeaseLost := by
    refine .bind .read fun t => ?_
    split
    · exact .raise (by simp [NotLeaseLost])
    · exact .pure _
  have hevent : ∀ row, (jobEvent H env row eventType actor (payload row) "" "").Raises NotLeaseLost :=
    fun row => .bind (raises_insertEvent _) fun _ => .bind (raises_updateJobRows _ _ _ _) fun _ => .pure _
  exact .bind hrow fun row => .bind (hevent row) fun _ => raises_returnJob jobId

variable {t : Tables} {row : JobRow} {jobId owner : String} {epoch : Nat} {e : Raised}

theorem run_jobRow (hrow : t.job? jobId = some row) : (jobRow jobId).run t = .ok (row, t) :=
  jobRow_eq_ok.mpr ⟨hrow, rfl⟩

/-- **Whoever is told that its lease is lost has lost it**, when it gives the job back. -/
theorem releaseJob_leaseLost {error : String} {delay : ℚ} {unknown : Bool} {now : Option ℚ}
    (h : (releaseJob H env jobId owner epoch error delay unknown now).run t = .error e)
    (he : e.kind = .leaseLost) (hrow : t.job? jobId = some row) :
    ¬ LeaseHeld row owner epoch (now.getD env.time) JobStatus.leasedStates := by
  intro hheld
  have hlease : (expectLease row owner epoch (now.getD env.time)).run t = .ok ((), t) :=
    expectLease_eq_ok.mpr ⟨hheld, rfl⟩
  unfold releaseJob at h
  rw [Txn.run_bind_of_ok (run_jobRow hrow), Txn.run_bind_of_ok hlease] at h
  have hrest : NotLeaseLost e := Txn.Raises.bind (.lift (raises_text _ _ _ _)) (fun _ =>
    .bind (.bind (raises_updateJobRows _ _ _ _) fun _ => .ensure (by simp [NotLeaseLost])) fun _ =>
      raises_publishJob _ _ _ _) t e h
  exact hrest he

/-- So when it acknowledges a cancellation. -/
theorem acknowledgeJobCancel_leaseLost {now : Option ℚ}
    (h : (acknowledgeJobCancel H env jobId owner epoch now).run t = .error e)
    (he : e.kind = .leaseLost) (hrow : t.job? jobId = some row) :
    ¬ LeaseHeld row owner epoch (now.getD env.time) JobStatus.leasedStates := by
  intro hheld
  have hlease : (expectLease row owner epoch (now.getD env.time)).run t = .ok ((), t) :=
    expectLease_eq_ok.mpr ⟨hheld, rfl⟩
  unfold acknowledgeJobCancel at h
  rw [Txn.run_bind_of_ok (run_jobRow hrow)] at h
  split at h
  · exact raises_returnJob jobId t e h he
  · rw [Txn.run_bind_of_ok hlease] at h
    have hrest : NotLeaseLost e := Txn.Raises.bind (.ensure (by simp [NotLeaseLost])) (fun _ =>
      .bind (raises_updateJobRows _ _ _ _) fun _ => raises_publishJob _ _ _ _) t e h
    exact hrest he

end Raising

/-! ## 3.  One task -/

section Task

variable {H : Host} {W : WorkScheduler} {handlers : List (String × JobHandler)} {t t' : Tables}
variable {x : Execution}

/-- What a task's lease is released by. -/
theorem released_of_commits {jobId owner : String} {epoch : Nat} {now : ℚ} {record : JobRecord}
    {guard : JobRow → Prop} {change : JobRow → JobRow}
    (h : CommitsJob t t' jobId record guard change)
    (hheld : ∀ row, guard row → LeaseHeld row owner epoch now JobStatus.leasedStates)
    (hepoch : ∀ row, (change row).leaseEpoch = row.leaseEpoch)
    (hfree : ∀ row, guard row → (change row).status ∉ JobStatus.leasedStates) :
    Released t' jobId epoch := by
  obtain ⟨row, event, hrow, hguard, hcommit, -⟩ := h
  have hafter := hcommit.changed.job? jobId
  rw [if_pos (jobId_of_job? hrow)] at hafter
  refine ⟨_, hafter, ?_, fun _ => hfree row hguard⟩
  change epoch ≤ (change row).leaseEpoch
  rw [hepoch, (hheld row hguard).2.1.2]

/-- A task makes at most one call at a time. -/
theorem called_advance (move : ExecutionMove) : Called H t (advance H W handlers t x move).2 := by
  cases move with
  | look =>
      rw [advance]
      split
      · split <;> exact .inl rfl
      · exact .inl rfl
  | start env =>
      rw [advance]
      split
      · split
        · exact called_of_unitOfWork (.startJob _ _ _ _ none none) rfl ‹_›
        · split <;> exact called_of_unitOfWork (.startJob _ _ _ _ none none) rfl ‹_›
      · exact .inl rfl
  | handled job outcome =>
      rw [advance]
      split
      · cases outcome <;> exact .inl rfl
      · exact .inl rfl
  | require fault =>
      rw [advance]
      split
      · split <;> exact .inl rfl
      · split
        · exact .inl rfl
        · split <;> exact .inl rfl
      · exact .inl rfl
  | acknowledge env =>
      rw [advance]
      split
      · split <;> exact called_of_unitOfWork (.acknowledgeJobCancel _ _ _ none) rfl ‹_›
      · split <;> exact called_of_unitOfWork (.acknowledgeJobCancel _ _ _ none) rfl ‹_›
      · exact .inl rfl
  | finish env =>
      rw [advance]
      split
      · split <;> exact called_of_unitOfWork (.finishJob _ _ _ _ _ _ _ _ none) rfl ‹_›
      · exact .inl rfl
  | release env =>
      rw [advance]
      split
      · split <;> exact called_of_unitOfWork (.releaseJob _ _ _ _ _ _ none) rfl ‹_›
      · exact .inl rfl
  | interrupt =>
      rw [advance]
      split <;> exact .inl rfl

/-! The phases a task can be sent to without a call of its own. -/

/-- A task that goes on, or ends with something it raised. -/
def GoesOn (x : Execution) : Prop :=
  x.phase ≠ .ended .settled ∧ x.phase ≠ .ended .leaseLost

theorem goesOn_goto {phase : Phase} (h : phase ≠ .ended .settled) (h' : phase ≠ .ended .leaseLost) :
    GoesOn (x.goto phase) := ⟨h, h'⟩

theorem goesOn_giveBack (error : String) (delay : Except Raised ℚ) : GoesOn (x.giveBack error delay) := by
  unfold Execution.giveBack
  split
  · exact goesOn_goto (by simp) (by simp)
  · exact goesOn_goto (by simp) (by simp)

theorem goesOn_failed (typeName error : String) : GoesOn (x.failed H typeName error) := goesOn_giveBack _ _

theorem goesOn_retried (error : String) (delay : ℚ) : GoesOn (x.retried H error delay) :=
  goesOn_giveBack _ _

/-- The row a task reads when its handler has returned. -/
theorem requireJob_eq_ok {jobId : String} {fault : Option Raised} {current : JobRecord}
    (h : requireJob t jobId fault = .ok current) : ∃ row, t.job? jobId = some row ∧ row.record = current := by
  unfold requireJob at h
  split at h
  · exact absurd h (by simp)
  · split at h
    · exact absurd h (by simp)
    · exact ⟨_, ‹_›, Except.ok.inj h⟩

/-- A task that finds its job parked or at an end has given its lease up. -/
theorem afterRequire_cases (value : HandlerValue) (current : JobRecord) :
    GoesOn (afterRequire H W x value current) ∨
      (afterRequire H W x value current).phase = .ended .settled ∧
        current.status ∉ JobStatus.leasedStates := by
  unfold afterRequire
  dsimp only
  split
  · rename_i hstatus
    refine .inr ⟨rfl, ?_⟩
    rcases hstatus with hwaiting | hterminal
    · rw [hwaiting]
      decide
    · revert hterminal
      cases current.status <;> decide
  · split
    · exact .inl (goesOn_goto (by simp) (by simp))
    · split
      · exact .inl (goesOn_failed (x := { x with job := current }) _ _)
      · exact .inl (goesOn_goto (by simp) (by simp))

theorem afterRefusal_cases (e : Raised) :
    GoesOn (afterRefusal x e) ∨ (afterRefusal x e).phase = .ended .leaseLost ∧ e.kind = .leaseLost := by
  unfold afterRefusal
  split
  · exact .inr ⟨rfl, ‹_›⟩
  · exact .inl (goesOn_goto (by simp) (by simp))

/-- What a task that ends by itself can say of its lease. -/
inductive Ends (x : Execution) (move : ExecutionMove) (t' : Tables) (x' : Execution) : Prop
  | goesOn (h : GoesOn x')
  | settled (h : x'.phase = .ended .settled)
      (released : Released t' x.leased.jobId.val x.leased.leaseEpoch)
  | leaseLost {env : Env} (h : x'.phase = .ended .leaseLost)
      (hmove : move = .release env ∨ move = .acknowledge env)
      (lost : (∀ e ∈ env.fault, NotLeaseLost e) → ∀ row, t'.job? x.leased.jobId.val = some row →
        ¬ LeaseHeld row x.leased.leaseOwner x.leased.leaseEpoch env.time JobStatus.leasedStates)

/-- The refusal of a call, and what it says when no fault was injected. -/
theorem unitOfWork_refused {α : Type} {body : Work α} {env : Env} {e : Raised}
    (h : Txn.unitOfWork body env.fault t = (.error e, t')) (hfault : ∀ e ∈ env.fault, NotLeaseLost e)
    (he : e.kind = .leaseLost) : t' = t ∧ body.run t = .error e := by
  refine ⟨Txn.unitOfWork_error h, ?_⟩
  unfold Txn.unitOfWork at h
  split at h
  · exact absurd h (by simp)
  · rename_i e' hrun hraised
    obtain rfl := Except.error.inj (Prod.mk.inj h).1
    exact absurd he (hfault _ hraised)
  · rename_i hrun
    obtain rfl := Except.error.inj (Prod.mk.inj h).1
    exact hrun

/-- A refused acknowledgement or release ends a task that has lost its lease. -/
theorem ends_refused {α : Type} {body : Work α} {env : Env} {e : Raised} {move : ExecutionMove}
    (h : Txn.unitOfWork body env.fault t = (.error e, t'))
    (hmove : move = .release env ∨ move = .acknowledge env)
    (hlost : ∀ row, body.run t = .error e → e.kind = .leaseLost → t.job? x.leased.jobId.val = some row →
      ¬ LeaseHeld row x.leased.leaseOwner x.leased.leaseEpoch env.time JobStatus.leasedStates) :
    Ends x move t' (afterRefusal x e) := by
  rcases afterRefusal_cases (x := x) e with hgoes | ⟨hphase, he⟩
  · exact .goesOn hgoes
  · refine .leaseLost hphase hmove fun hfault row hrow => ?_
    obtain ⟨rfl, hrun⟩ := unitOfWork_refused h hfault he
    exact hlost row hrun he hrow

/-- A task whose handler returned ends when it finds its job parked or at an end. -/
theorem ends_required {move : ExecutionMove} {value : HandlerValue} {current : JobRecord}
    {fault : Option Raised} (hgranted : Granted t x.leased.jobId.val x.leased.leaseEpoch)
    (hread : requireJob t x.leased.jobId.val fault = .ok current) :
    Ends x move t (afterRequire H W x value current) := by
  rcases afterRequire_cases (H := H) (W := W) (x := x) value current with hgoes | ⟨hphase, hfree⟩
  · exact .goesOn hgoes
  · obtain ⟨row, hrow, rfl⟩ := requireJob_eq_ok hread
    obtain ⟨row', hrow', hle⟩ := hgranted
    obtain rfl := Option.some.inj (hrow.symm.trans hrow')
    exact .settled hphase ⟨row, hrow, hle, fun _ => hfree⟩

/-- **How a task ends.**  A task that has not ended goes on, ends by what it raised or by its cancellation,
or has given its lease up, or was told rightly that it had lost it. -/
theorem ends_advance (hgranted : Granted t x.leased.jobId.val x.leased.leaseEpoch)
    (hunder : x.finished = false) (move : ExecutionMove) :
    Ends x move (advance H W handlers t x move).2 (advance H W handlers t x move).1 := by
  have hself : GoesOn x := by
    constructor <;> (intro h; rw [Execution.finished, h] at hunder; exact absurd hunder (by simp))
  have hacknowledged : ∀ {env : Env} {record : JobRecord} {t' : Tables},
      Txn.unitOfWork (acknowledgeJobCancel H env x.leased.jobId.val x.leased.leaseOwner
        x.leased.leaseEpoch none) env.fault t = (.ok record, t') →
      Released t' x.leased.jobId.val x.leased.leaseEpoch := by
    intro env record t' hcall
    rcases acknowledgeJobCancel_eq_ok (Txn.unitOfWork_ok.mp hcall).1 with
      ⟨row, hrow, hcancelled, rfl⟩ | hcommits
    · obtain ⟨row', hrow', hle⟩ := hgranted
      obtain rfl := Option.some.inj (hrow.symm.trans hrow')
      exact ⟨row, hrow, hle, fun _ => by
        rw [hcancelled]
        decide⟩
    · exact released_of_commits hcommits (fun _ guard => guard.1) (fun _ => rfl) fun _ _ => by
        simp [acknowledgeChange, JobStatus.leasedStates]
  cases move with
  | look =>
      rw [advance]
      split
      · split
        · exact .goesOn (goesOn_goto (by simp) (by simp))
        · exact .goesOn (goesOn_goto (by simp) (by simp))
      · exact .goesOn hself
  | start env =>
      rw [advance]
      split
      · split
        · exact .goesOn (goesOn_failed _ _)
        · split
          · exact .goesOn (goesOn_retried (x := { x with job := _ }) _ _)
          · exact .goesOn (goesOn_goto (by simp) (by simp))
      · exact .goesOn hself
  | handled job outcome =>
      rw [advance]
      split
      · cases outcome with
        | retry error delay => exact .goesOn (goesOn_retried (x := { x with job := job }) _ _)
        | failed typeName error => exact .goesOn (goesOn_failed (x := { x with job := job }) _ _)
        | returned | unknownEffect | cancelled => exact .goesOn (goesOn_goto (by simp) (by simp))
      · exact .goesOn hself
  | require fault =>
      rw [advance]
      split
      · split
        · exact .goesOn (goesOn_failed _ _)
        · exact ends_required hgranted ‹_›
      · split
        · exact .goesOn (goesOn_goto (by simp) (by simp))
        · split
          · exact .goesOn (goesOn_goto (by simp) (by simp))
          · exact .goesOn (goesOn_goto (by simp) (by simp))
      · exact .goesOn hself
  | acknowledge env =>
      rw [advance]
      split
      · split
        · exact .goesOn (goesOn_failed _ _)
        · exact .settled rfl (hacknowledged ‹_›)
      · split
        · rename_i e t' hcall
          exact ends_refused hcall (.inr rfl) fun row hrun he hrow =>
            acknowledgeJobCancel_leaseLost hrun he hrow
        · exact .settled rfl (hacknowledged ‹_›)
      · exact .goesOn hself
  | finish env =>
      rw [advance]
      split
      · split
        · exact .goesOn (goesOn_failed _ _)
        · rename_i record t' hcall
          obtain ⟨target, hterminal, -, _, _, _, _, hcommits⟩ :=
            finishJob_eq_ok (Txn.unitOfWork_ok.mp hcall).1
          refine .settled rfl (released_of_commits hcommits (fun _ guard => guard.1) (fun _ => rfl)
            fun _ _ => ?_)
          change target ∉ JobStatus.leasedStates
          revert hterminal
          cases target <;> decide
      · exact .goesOn hself
  | release env =>
      rw [advance]
      split
      · split
        · rename_i e t' hcall
          exact ends_refused hcall (.inl rfl) fun row hrun he hrow => releaseJob_leaseLost hrun he hrow
        · rename_i record t' hcall
          obtain ⟨clean, hcommits⟩ := releaseJob_eq_ok (Txn.unitOfWork_ok.mp hcall).1
          refine .settled rfl (released_of_commits hcommits (fun _ held => held) (fun _ => rfl)
            fun row _ => ?_)
          change releaseTarget _ row ∉ JobStatus.leasedStates
          unfold releaseTarget
          split
          · decide
          · split
            · decide
            · split <;> decide
      · exact .goesOn hself
  | interrupt =>
      rw [advance]
      split
      all_goals first
        | exact .goesOn hself
        | exact .goesOn (goesOn_goto (by simp) (by simp))

end Task

/-! ## 4.  All of them -/

section Leases

variable {H : Host} {W : WorkScheduler} {s s' : SchedulerState}

/-- The leases that were ever worked on, oldest first. -/
def SchedulerState.leases (s : SchedulerState) : List JobRecord := s.executions.map (·.leased)

/-- **What holds of the leases of a scheduler.** -/
structure LeaseBooks (s : SchedulerState) : Prop where
  granted : ∀ job ∈ s.leases, Granted s.tables job.jobId.val job.leaseEpoch
  next : ∀ remaining started job, s.admission = some (.leased remaining started job) →
    Granted s.tables job.jobId.val job.leaseEpoch ∧ ∀ earlier ∈ s.leases,
      earlier.jobId.val = job.jobId.val → earlier.leaseEpoch < job.leaseEpoch
  settled : ∀ x ∈ s.executions, x.phase = .ended .settled →
    Released s.tables x.leased.jobId.val x.leased.leaseEpoch
  once : s.leases.Pairwise fun earlier later =>
    earlier.jobId.val = later.jobId.val → earlier.leaseEpoch < later.leaseEpoch

theorem leaseBooks_initial : LeaseBooks .initial where
  granted job h := absurd h (by simp [SchedulerState.initial, SchedulerState.leases])
  next _ _ _ h := absurd h (by simp [SchedulerState.initial])
  settled x h := absurd h (by simp [SchedulerState.initial])
  once := List.Pairwise.nil

/-- Where no task changes, the tables may move by a call, and an admission may go on or end. -/
theorem LeaseBooks.called (h : LeaseBooks s) (hcalled : Called H s.tables s'.tables)
    (hexecutions : s'.executions = s.executions)
    (hadmission : ∀ remaining started job, s'.admission = some (.leased remaining started job) →
      s.admission = s'.admission) : LeaseBooks s' := by
  have hleases : s'.leases = s.leases := congrArg (List.map fun x : Execution => x.leased) hexecutions
  exact
    { granted := fun job hjob => (h.granted job (hleases ▸ hjob)).called hcalled
      next := fun remaining started job ha => by
        obtain ⟨hgranted, hearlier⟩ := h.next remaining started job
          ((hadmission remaining started job ha).trans ha)
        exact ⟨hgranted.called hcalled, fun earlier hmem => hearlier earlier (hleases ▸ hmem)⟩
      settled := fun x hx hphase => (h.settled x (hexecutions ▸ hx) hphase).called hcalled
      once := by
        rw [hleases]
        exact h.once }

theorem leases_set {index : Nat} {x x' : Execution} (hx : s.executions[index]? = some x)
    (hleased : x'.leased = x.leased) :
    (s.executions.set index x').map (·.leased) = s.executions.map (·.leased) := by
  rw [List.map_set, hleased]
  have hself : (s.executions.map (·.leased))[index]? = some x.leased := by
    rw [List.getElem?_map, hx, Option.map_some]
  obtain ⟨hlt, hget⟩ := List.getElem?_eq_some_iff.mp hself
  rw [← hget, List.set_getElem_self]

/-- A task may change as long as it keeps its lease, and gave it up if it says so. -/
theorem LeaseBooks.replace (h : LeaseBooks s) {index : Nat} {x x' : Execution}
    (hx : s.executions[index]? = some x) (hleased : x'.leased = x.leased)
    (hcalled : Called H s.tables s'.tables) (hexecutions : s'.executions = s.executions.set index x')
    (hadmission : s'.admission = s.admission)
    (hsettled : x'.phase = .ended .settled → Released s'.tables x.leased.jobId.val x.leased.leaseEpoch) :
    LeaseBooks s' := by
  have hleases : s'.leases = s.leases := by
    unfold SchedulerState.leases
    rw [hexecutions, leases_set hx hleased]
  exact
    { granted := fun job hjob => (h.granted job (hleases ▸ hjob)).called hcalled
      next := fun remaining started job ha => by
        obtain ⟨hgranted, hearlier⟩ := h.next remaining started job (hadmission.symm.trans ha)
        exact ⟨hgranted.called hcalled, fun earlier hmem => hearlier earlier (hleases ▸ hmem)⟩
      settled := fun y hy hphase => by
        rw [hexecutions] at hy
        rcases List.mem_or_eq_of_mem_set hy with hmem | rfl
        · exact (h.settled y hmem hphase).called hcalled
        · rw [hleased]
          exact hsettled hphase
      once := by
        rw [hleases]
        exact h.once }

/-- **A new lease is later than every lease of its job that was worked on.** -/
theorem LeaseBooks.lease (h : LeaseBooks s) {env : Env} {owner : String} {kinds excluded : List String}
    {ttl : ℚ} {job : JobRecord} {t' : Tables}
    (hrun : (leaseNextJob H env owner kinds excluded ttl none).run s.tables = .ok (some job, t')) :
    Granted t' job.jobId.val job.leaseEpoch ∧ ∀ earlier ∈ s.leases,
      earlier.jobId.val = job.jobId.val → earlier.leaseEpoch < job.leaseEpoch := by
  rcases leaseNextJob_eq_ok hrun with ⟨hnone, -⟩ | ⟨worker, row, event, hrow, -, -, -, -, hcommit, hjob⟩
  · exact absurd hnone (by simp)
  · obtain rfl := Option.some.inj hjob
    have hafter := hcommit.changed.job? row.jobId.val
    rw [if_pos rfl] at hafter
    refine ⟨⟨_, hafter, le_rfl⟩, fun earlier hmem hsame => ?_⟩
    obtain ⟨row', hrow', hle⟩ := h.granted earlier hmem
    change earlier.jobId.val = row.jobId.val at hsame
    rw [hsame] at hrow'
    obtain rfl := Option.some.inj (hrow.symm.trans hrow')
    exact Nat.lt_succ_of_le hle

theorem LeaseBooks.track (h : LeaseBooks s) {remaining started : Nat} {job : JobRecord}
    (ha : s.admission = some (.leased remaining started job)) {admission : Option Admission}
    (hadmission : ∀ remaining started job, admission ≠ some (.leased remaining started job)) :
    LeaseBooks { s.track job with admission := admission } := by
  obtain ⟨hgranted, hearlier⟩ := h.next remaining started job ha
  have hleases : SchedulerState.leases { s.track job with admission := admission } = s.leases ++ [job] := by
    change (s.executions ++ [(⟨job, job, .created, false⟩ : Execution)]).map (·.leased) = _
    rw [List.map_append]
    rfl
  exact
    { granted := fun other hother => by
        rw [hleases] at hother
        rcases List.mem_append.mp hother with hmem | hmem
        · exact h.granted other hmem
        · rw [List.mem_singleton.mp hmem]
          exact hgranted
      next := fun remaining' started' job' hnext => absurd hnext (hadmission _ _ _)
      settled := fun x hx hphase => by
        rcases List.mem_append.mp hx with hmem | hmem
        · exact h.settled x hmem hphase
        · rw [List.mem_singleton.mp hmem] at hphase
          exact absurd hphase (by simp)
      once := by
        rw [hleases, List.pairwise_append]
        refine ⟨h.once, List.pairwise_singleton _ _, fun earlier hmem later hlater => ?_⟩
        rw [List.mem_singleton.mp hlater]
        exact hearlier earlier hmem }

/-- **Every move keeps what holds of the leases.** -/
theorem leaseBooks_step (h : LeaseBooks s) (move : SchedulerMove) :
    LeaseBooks (schedulerStep H W s move).2 := by
  cases move with
  | call call => exact h.called (H := H) (.inr ⟨call, _, rfl⟩) rfl fun _ _ _ _ => rfl
  | register kind handler limit =>
      rw [schedulerStep]
      split
      · exact h
      · exact h.called (H := H) (.inl rfl) rfl fun _ _ _ _ => rfl
  | unregister kind => exact h.called (H := H) (.inl rfl) rfl fun _ _ _ _ => rfl
  | enter =>
      rw [schedulerStep]
      split
      · exact h
      · split
        · exact h
        · exact h.called (H := H) (.inl rfl) rfl fun _ _ _ ha => absurd ha (by simp)
  | ask resolved =>
      rw [schedulerStep]
      split
      · split
        · exact h.called (H := H) (.inl rfl) rfl fun _ _ _ ha => absurd ha (by simp)
        · exact h.called (H := H) (.inl rfl) rfl fun _ _ _ ha => absurd ha (by simp)
      · exact h
  | lease env =>
      rw [schedulerStep]
      split
      · split
        · rename_i e t' hcall
          exact h.called (called_of_unitOfWork (.leaseNextJob _ _ _ _ none) rfl hcall) rfl
            fun _ _ _ ha => absurd ha (by simp)
        · rename_i t' hcall
          exact h.called (called_of_unitOfWork (.leaseNextJob _ _ _ _ none) rfl hcall) rfl
            fun _ _ _ ha => absurd ha (by simp)
        · rename_i job t' hcall
          have hcalled : Called H s.tables t' :=
            called_of_unitOfWork (.leaseNextJob _ _ _ _ none) rfl hcall
          exact
            { granted := fun other hother => (h.granted other hother).called hcalled
              next := fun _ _ _ ha => by
                obtain ⟨-, -, rfl⟩ := Admission.leased.inj (Option.some.inj ha)
                exact h.lease (Txn.unitOfWork_ok.mp hcall).1
              settled := fun x hx hphase => (h.settled x hx hphase).called hcalled
              once := h.once }
      · exact h
  | track =>
      rw [schedulerStep]
      split
      · rename_i remaining started job hadmission
        refine h.track hadmission fun _ _ _ => ?_
        unfold nextAdmission
        split <;> simp
      · exact h
  | abandon => exact h.called (H := H) (.inl rfl) rfl fun _ _ _ ha => absurd ha (by simp [schedulerStep])
  | execution index move =>
      rw [schedulerStep]
      split
      · exact h
      · rename_i x hx
        have hgranted := h.granted x.leased
          (List.mem_map_of_mem (f := fun x : Execution => x.leased) (List.mem_of_getElem? hx))
        refine h.replace hx (sameTask_advance move).1 (called_advance move) rfl rfl fun hphase => ?_
        by_cases hended : x.finished = true
        · rw [advance_finished hended] at hphase ⊢
          exact h.settled x (List.mem_of_getElem? hx) hphase
        · have hends : Ends x move (advance H W s.handlers s.tables x move).2
              (advance H W s.handlers s.tables x move).1 :=
            ends_advance hgranted (by simpa using hended) move
          cases hends with
          | goesOn hgoes => exact absurd hphase hgoes.1
          | settled _ released => exact released
          | leaseLost hlost => exact absurd (hlost.symm.trans hphase) (by simp)
  | done index =>
      rw [schedulerStep]
      split
      · exact h
      · rename_i x hx
        split
        · have hsame : (s.strike x.leased.jobId.val index).tables = s.tables ∧
              (s.strike x.leased.jobId.val index).admission = s.admission := by
            unfold SchedulerState.strike
            split <;> exact ⟨rfl, rfl⟩
          refine h.replace (H := H) hx (rfl : ({ x with called := true } : Execution).leased = x.leased)
            (.inl hsame.1) rfl hsame.2 fun hphase => ?_
          have hreleased := h.settled x (List.mem_of_getElem? hx) hphase
          rw [← hsame.1] at hreleased
          exact hreleased
        · exact h
  | shutdown => exact h.called (H := H) (.inl rfl) rfl fun _ _ _ _ => rfl
  | cleared =>
      rw [schedulerStep]
      split
      · exact h
      · split
        · exact h.called (H := H) (.inl rfl) rfl fun _ _ _ _ => rfl
        · exact h

/-- **Tasks settle their leases.**  In every run, whatever else is called and however leases run out, are
recovered and are granted again: the lease of a task that ended by a call that returned, or because its job
was parked or at an end, is not held and never will be; a task that ends because it was told that its lease
is lost had lost it; and no two tasks ever worked under one lease. -/
theorem executions_settle {h : List (SchedulerMove × SchedulerReply)} (hrun : (scheduler H W).Run h s) :
    (∀ x ∈ s.executions, x.phase = .ended .settled →
      Released s.tables x.leased.jobId.val x.leased.leaseEpoch) ∧
    (∀ index x move, s.executions[index]? = some x → x.finished = false →
      (advance H W s.handlers s.tables x move).1.phase = .ended .leaseLost →
      ∃ env, (move = .release env ∨ move = .acknowledge env) ∧
        ((∀ e ∈ env.fault, e.kind ≠ .leaseLost) → ∀ row,
          (schedulerStep H W s (.execution index move)).2.tables.job? x.leased.jobId.val = some row →
            ¬ LeaseHeld row x.leased.leaseOwner x.leased.leaseEpoch env.time JobStatus.leasedStates)) ∧
    s.executions.Pairwise fun x y =>
      x.leased.jobId.val = y.leased.jobId.val → x.leased.leaseEpoch < y.leased.leaseEpoch := by
  have hbooks : LeaseBooks s := by
    refine hrun.invariant (I := fun _ s => LeaseBooks s) leaseBooks_initial ?_
    intro h s move r s' hrun hbooks hstep
    obtain rfl : (schedulerStep H W s move).2 = s' := congrArg Prod.snd hstep
    exact leaseBooks_step hbooks move
  refine ⟨hbooks.settled, fun index x move hx hunder hphase => ?_, List.pairwise_map.mp hbooks.once⟩
  have hgranted := hbooks.granted x.leased
    (List.mem_map_of_mem (f := fun x : Execution => x.leased) (List.mem_of_getElem? hx))
  have htables : (schedulerStep H W s (.execution index move)).2.tables =
      (advance H W s.handlers s.tables x move).2 := by
    rw [schedulerStep, hx]
  have hends : Ends x move (advance H W s.handlers s.tables x move).2
      (advance H W s.handlers s.tables x move).1 := ends_advance hgranted hunder move
  cases hends with
  | goesOn hgoes => exact absurd hphase hgoes.2
  | settled hsettled => exact absurd (hsettled.symm.trans hphase) (by simp)
  | leaseLost _ hmove lost =>
      refine ⟨_, hmove, fun hfault row hrow => ?_⟩
      rw [htables] at hrow
      exact lost hfault row hrow

/-- A handler is taken back before the task it was for takes its first step. -/
def takenBack : List SchedulerMove :=
  [.call (callAt 0 (.createJob { kind := "k", ownerKind := "chat", ownerId := "o", jobId := "j" })),
    .register "k" ⟨true⟩ none, .enter, .ask fun _ => none, .lease (.clock 0), .track,
    .unregister "k", .execution 0 .look, .execution 0 (.start (.clock 1)),
    .execution 0 (.release (.clock 1))]

/-- Whether a task ended by a call that returned. -/
def Execution.settled (x : Execution) : Bool :=
  match x.phase with
  | .ended .settled => true
  | _ => false

theorem phase_of_settled {x : Execution} (h : x.settled = true) : x.phase = .ended .settled := by
  unfold Execution.settled at h
  split at h
  · assumption
  · exact absurd h (by simp)

theorem executions_settle_taken_back :
    ∃ x ∈ (afterMoves takenBack).2.executions, x.phase = .ended .settled ∧
      Released (afterMoves takenBack).2.tables x.leased.jobId.val x.leased.leaseEpoch := by
  have hany : (afterMoves takenBack).2.executions.any Execution.settled = true := by decide +kernel
  obtain ⟨x, hx, hsettled⟩ := List.any_eq_true.mp hany
  have hphase := phase_of_settled hsettled
  have hrun : (scheduler Host.plain pairWorker).Run (afterMoves takenBack).1 (afterMoves takenBack).2 :=
    Machine.Run.exec .start takenBack
  exact ⟨x, hx, hphase, (executions_settle hrun).1 x hx hphase⟩

end Leases

end WorkFabric
end VariantOne
