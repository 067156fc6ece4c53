import VariantOne.WorkFabric.JobRefinement

/-!
# Cancellation

A cancellation request either takes effect at once or, on a running job, sets a
flag that the handler is to act on.  This file follows the flag.

## 1.  Where the flag can be

`FlagSettled` says that a flagged job is running or terminal.  All steps keep it
but one: `mark_job_waiting` parks a running job without looking at the flag.  A
flagged job that waits is one `wake_job` away from losing its request, since
waking clears the flag.

## 2.  What a request settles

`Doomed` is what a request that returned leaves behind, on a job that was not
terminal: flagged and running, or terminal without success.  As long as the job
is not parked under its flag and nobody retries it, every step keeps it doomed,
and no step leases or starts it (`doomed_step`).

`cancellation_kept` states both over every run in which no flagged job is parked,
and `parked_request_lost` is a run in which one is, and which ends in success.
-/

namespace VariantOne
namespace WorkFabric

open JobControl

/-! ## 1.  Where the flag can be -/

/-- A flagged job is running or terminal. -/
def FlagSettled (c : JobControl) : Prop :=
  c.cancelRequested = true → c.status = .running ∨ c.status ∈ JobStatus.terminal

/-- No flagged job is parked. -/
def ParksNoFlag (_ : List JobAction) (c : JobControl) : JobAction → Prop
  | .wait .. => c.cancelRequested = false
  | _ => True

theorem flagSettled_of_open {c : JobControl} (h : c.cancelRequested = false) : FlagSettled c := by
  intro hflag
  exact absurd (h.symm.trans hflag) (by decide)

theorem flagSettled_of_terminal {c : JobControl} (h : c.status ∈ JobStatus.terminal) :
    FlagSettled c :=
  fun _ => Or.inr h

/-- A flag on a job that is neither running nor terminal cannot be. -/
theorem FlagSettled.open_of {c : JobControl} (h : FlagSettled c) (hrun : c.status ≠ .running)
    (hterm : c.status ∉ JobStatus.terminal) : c.cancelRequested = false := by
  by_contra hflag
  rw [Bool.not_eq_false] at hflag
  rcases h hflag with hs | hs
  · exact hrun hs
  · exact hterm hs

/-- **Every step that parks no flag keeps flags settled.** -/
theorem flagSettled_step {as : List JobAction} {c c' : JobControl} {a : JobAction}
    (h : FlagSettled c) (hc : ParksNoFlag as c a) (hstep : Step c a c') : FlagSettled c' := by
  cases hstep with
  | again | progress | cancelAgain | acknowledged | heartbeat => exact h
  | lease _ open_ _ => exact flagSettled_of_open open_
  | start => exact fun _ => Or.inl rfl
  | wait => exact flagSettled_of_open hc
  | wake => exact flagSettled_of_open rfl
  | pause idle =>
      refine flagSettled_of_open (h.open_of ?_ ?_) <;> rcases idle with hs | hs <;> rw [hs] <;>
        decide
  | cancelNow | acknowledge => exact flagSettled_of_terminal (by simp [JobStatus.terminal])
  | cancelLater running _ => exact fun _ => Or.inl running
  | finish _ terminal _ => exact flagSettled_of_terminal terminal
  | release =>
      rcases c.releaseTarget_cases _ with ⟨-, ht⟩ | ⟨hopen, -⟩ | ⟨hopen, -⟩ | ⟨hopen, -⟩
      · exact flagSettled_of_terminal (by rw [unleased_status, ht]; decide)
      · exact flagSettled_of_open hopen
      · exact flagSettled_of_open hopen
      · exact flagSettled_of_open hopen
  | retry => exact flagSettled_of_open rfl
  | recover =>
      rcases c.recoverTarget_cases with ⟨-, ht⟩ | ⟨hopen, -⟩ | ⟨hopen, -⟩ | ⟨hopen, -⟩
      · refine flagSettled_of_terminal ?_
        change c.recoverTarget ∈ JobStatus.terminal
        rw [ht]
        decide
      · exact flagSettled_of_open hopen
      · exact flagSettled_of_open hopen
      · exact flagSettled_of_open hopen

/-! ## 2.  What a request settles -/

/-- Flagged and running, or terminal without success. -/
def Doomed (c : JobControl) : Prop :=
  (c.status = .running ∧ c.cancelRequested = true) ∨
    (c.status ∈ JobStatus.terminal ∧ c.status ≠ .succeeded)

/-- The actions that hand the job to a worker. -/
def JobAction.hands : JobAction → Bool
  | .lease .. | .start .. => true
  | _ => false

theorem Doomed.not_succeeded {c : JobControl} (h : Doomed c) : c.status ≠ .succeeded := by
  rcases h with ⟨hs, -⟩ | ⟨-, hs⟩
  · rw [hs]
    decide
  · exact hs

/-- A doomed job that is not terminal runs under its flag. -/
theorem Doomed.running {c : JobControl} (h : Doomed c) (hterm : c.status ∉ JobStatus.terminal) :
    c.status = .running ∧ c.cancelRequested = true := by
  rcases h with hrun | ⟨hs, -⟩
  · exact hrun
  · exact absurd hs hterm

theorem leased_not_terminal {s : JobStatus} (h : s ∈ JobStatus.leasedStates) :
    s ∉ JobStatus.terminal := by
  revert h
  cases s <;> decide

theorem doomed_of_target {c : JobControl} {s : JobStatus} (hs : s ∈ JobStatus.terminal)
    (hne : s ≠ .succeeded) : Doomed (c.unleased s) :=
  Or.inr ⟨hs, hne⟩

/-- **A doomed job stays doomed** until it is retried, and nobody gets it. -/
theorem doomed_step {as : List JobAction} {c c' : JobControl} {a : JobAction} (h : Doomed c)
    (hc : ParksNoFlag as c a) (hretry : ∀ reset, a ≠ .retry reset) (hstep : Step c a c') :
    Doomed c' ∧ a.hands = false := by
  have hidle : ∀ s, c.status = s → s ≠ .running → s ∈ JobStatus.terminal := by
    intro s hs hne
    by_contra hterm
    exact hne (hs ▸ (h.running (hs ▸ hterm)).1)
  cases hstep with
  | again | progress | cancelAgain | acknowledged => exact ⟨h, rfl⟩
  | heartbeat => exact ⟨h, rfl⟩
  | lease queued _ _ => exact absurd (hidle _ queued (by decide)) (by decide)
  | start held =>
      have hleased : c.status = .leased := by simpa using held.1
      exact absurd (hidle _ hleased (by decide)) (by decide)
  | wait held =>
      have hrunning : c.status = .running := by simpa using held.1
      have hflag := (h.running (by rw [hrunning]; decide)).2
      exact absurd (hc.symm.trans hflag) (by decide)
  | wake parked =>
      rcases parked with hs | hs <;> exact absurd (hidle _ hs (by decide)) (by decide)
  | pause idle =>
      rcases idle with hs | hs <;> exact absurd (hidle _ hs (by decide)) (by decide)
  | cancelNow => exact ⟨Or.inr (by simp [JobStatus.terminal]), rfl⟩
  | cancelLater running _ => exact ⟨Or.inl ⟨running, rfl⟩, rfl⟩
  | acknowledge => exact ⟨doomed_of_target (by decide) (by decide), rfl⟩
  | finish held terminal allowed =>
      have hflag := (h.running (leased_not_terminal held.1)).2
      exact ⟨doomed_of_target terminal fun hs => allowed ⟨hflag, hs⟩, rfl⟩
  | @release owner epoch now unknown held =>
      have hflag := (h.running (leased_not_terminal held.1)).2
      have htarget : c.releaseTarget unknown = .cancelled := by
        rw [JobControl.releaseTarget, if_pos hflag]
      rw [htarget]
      exact ⟨doomed_of_target (by decide) (by decide), rfl⟩
  | retry => exact absurd rfl (hretry _)
  | recover expired =>
      have hflag := (h.running (leased_not_terminal expired.1)).2
      have htarget : c.recoverTarget = .cancelled := by
        rw [JobControl.recoverTarget, if_pos hflag]
      refine ⟨Or.inr ?_, rfl⟩
      change c.recoverTarget ∈ JobStatus.terminal ∧ c.recoverTarget ≠ .succeeded
      rw [htarget]
      decide

/-- A request that returns dooms a job that is not terminal. -/
theorem doomed_of_request {c c' : JobControl} (h : FlagSettled c)
    (hlive : c.status ∉ JobStatus.terminal) (hstep : Step c .requestCancel c') : Doomed c' := by
  cases hstep with
  | cancelNow => exact Or.inr (by simp [JobStatus.terminal])
  | cancelLater running _ => exact Or.inl ⟨running, rfl⟩
  | cancelAgain settled =>
      rcases settled with hs | hflag
      · exact absurd hs hlive
      · rcases h hflag with hs | hs
        · exact Or.inl ⟨hs, hflag⟩
        · exact absurd hs hlive

/-! ## 3.  Over runs of the repository -/

variable {H : Host} {env : Env} {h later : History} {t t' t'' : Tables}

/-- The call parks a job under its flag: `mark_job_waiting` by the holder of the
lease, on a running job whose cancellation was requested. -/
def ParksFlagged (t : Tables) (call : Call) : Prop :=
  match call.op with
  | .markJobWaiting jobId owner epoch _ now =>
      ∃ row, t.job? jobId = some row ∧ row.cancelRequested = true ∧
        LeaseHeld row owner epoch (now.getD call.env.time) [.running]
  | _ => False

/-- No step of the run parks a job under its flag. -/
def NoFlagParked (_ : History) (t : Tables) (call : Call) : Prop := ¬ ParksFlagged t call

/-- An action is the wait action only for a `mark_job_waiting`. -/
theorem op_of_wait {j : String} {op : Op} {outcome : Outcome} {owner : String} {epoch : Nat}
    {now : ℚ} (ha : actionAt j env op outcome = some (.wait owner epoch now)) :
    ∃ progress clock, op = .markJobWaiting j owner epoch progress clock := by
  unfold actionAt at ha
  split at ha
  all_goals try (split at ha <;> simp at ha <;> done)
  · rename_i jobId holder epoch' progress clock record
    split at ha
    · rename_i hj
      subst hj
      simp only [Option.some.injEq, JobAction.wait.injEq] at ha
      obtain ⟨rfl, rfl, -⟩ := ha
      exact ⟨progress, clock, rfl⟩
    · exact absurd ha (by simp)
  · exact absurd ha (by simp)

/-- Where no call parks a job under its flag, no action does. -/
theorem noFlagParked_forces : Forces (H := H) NoFlagParked ParksNoFlag := by
  intro h t call r t' j row a hC hstep hrow ha
  cases a with
  | wait owner epoch now =>
      by_contra hflag
      rw [ParksNoFlag, Bool.not_eq_false] at hflag
      obtain ⟨env, op⟩ := call
      cases r with
      | error e => exact absurd ha (by simp [entryAction])
      | ok outcome =>
          obtain ⟨progress, clock, rfl⟩ := op_of_wait ha
          have hperform := step_ok hstep
          rw [perform] at hperform
          obtain ⟨record, hbody, -⟩ := Txn.run_map_eq_ok.mp hperform
          obtain ⟨stored, row', event, hrow', hheld, -⟩ := markJobWaiting_eq_ok hbody
          obtain rfl := Option.some.inj (hrow.symm.trans hrow')
          exact hC ⟨row, hrow, hflag, hheld⟩
  | _ => trivial

/-- Flags are settled in every state of such a run. -/
theorem flagSettled_of_run (hrun : (repository H).RunWhere NoFlagParked h t) {j : String}
    {row : JobRow} (hrow : t.job? j = some row) : FlagSettled row.control :=
  ((jobRun_of_run noFlagParked_forces hrun j).1 row hrow).invariant
    (I := fun _ c => FlagSettled c) (fun _ _ _ => flagSettled_of_open rfl)
    fun _ _ _ _ _ hi hC hstep => flagSettled_step hi hC hstep

/-- A call moves a doomed job to a doomed one and hands it to nobody. -/
theorem doomed_of_move {j : String} {row : JobRow} {action : Option JobAction}
    (as : List JobAction) (hmove : JobMove t t' j action) (hrow : t.job? j = some row)
    (hdoomed : Doomed row.control) (hC : ∀ a, action = some a → ParksNoFlag as row.control a)
    (hretry : ∀ reset, action ≠ some (.retry reset)) :
    (∃ row', t'.job? j = some row' ∧ Doomed row'.control) ∧
      ∀ a, action = some a → a.hands = false := by
  cases hmove with
  | kept same => exact ⟨⟨row, same.trans hrow, hdoomed⟩, by simp⟩
  | created fresh _ _ _ => exact absurd (fresh.symm.trans hrow) (by simp)
  | @moved before after action found found' hstep =>
      obtain rfl := Option.some.inj (hrow.symm.trans found)
      obtain ⟨hdoomed', hhands⟩ := doomed_step hdoomed (hC _ rfl)
        (fun reset hr => hretry reset (congrArg some hr)) hstep
      refine ⟨⟨after, found', hdoomed'⟩, fun a ha => ?_⟩
      rw [← Option.some.inj ha]
      exact hhands

/-- **After a request.**  As long as nobody retries the job, it stays doomed and
is handed to nobody. -/
theorem doomed_of_extends {j : String} {row : JobRow} (hrow : t.job? j = some row)
    (hdoomed : Doomed row.control)
    (hext : (repository H).Extends NoFlagParked h t later t')
    (hretry : ∀ reset, JobAction.retry reset ∉ actions j later) :
    (∃ row', t'.job? j = some row' ∧ Doomed row'.control) ∧
      ∀ a ∈ actions j later, a.hands = false := by
  revert hretry
  refine Machine.Extends.invariant (I := fun later t' =>
    (∀ reset, JobAction.retry reset ∉ actions j later) →
      (∃ row', t'.job? j = some row' ∧ Doomed row'.control) ∧
        ∀ a ∈ actions j later, a.hands = false) ?_ ?_ hext
  · exact fun _ => ⟨⟨row, hrow, hdoomed⟩, by simp⟩
  · intro later t₁ call r t₂ _ ih hC hstep hretry
    have hcons : actions j ((call, r) :: later) =
        (entryAction j (call, r)).toList ++ actions j later := by
      cases ha : entryAction j (call, r) with
      | none => rw [actions_cons_of_none ha, Option.toList_none, List.nil_append]
      | some a => rw [actions_cons_of_some ha, Option.toList_some, List.singleton_append]
    rw [hcons] at hretry ⊢
    obtain ⟨⟨row₁, hrow₁, hdoomed₁⟩, hhands⟩ := ih fun reset hmem =>
      hretry reset (List.mem_append_right _ hmem)
    obtain ⟨hdoomed₂, hhands₂⟩ := doomed_of_move (actions j (later ++ h))
      (move_of_step hstep j) hrow₁ hdoomed₁
      (fun a ha => noFlagParked_forces _ _ _ _ _ _ _ _ hC hstep hrow₁ ha)
      fun reset ha => hretry reset (List.mem_append_left _ (by rw [ha]; simp))
    refine ⟨hdoomed₂, fun a ha => ?_⟩
    rcases List.mem_append.mp ha with hmem | hmem
    · exact hhands₂ a (Option.mem_toList.mp hmem)
    · exact hhands a hmem

/-- **Cancellation is never lost** in a run that parks no job under its flag.
Every flagged job is running or terminal.  Once a request has returned for a job
that was not terminal, the job does not succeed and is neither leased nor started
until somebody retries it. -/
theorem cancellation_kept (hrun : (repository H).RunWhere NoFlagParked h t) :
    (∀ j row, t.job? j = some row → row.cancelRequested = true →
      row.status = .running ∨ row.status ∈ JobStatus.terminal) ∧
    ∀ j reason revision actor outcome row,
      t.job? j = some row → row.status ∉ JobStatus.terminal →
      (repository H).step ⟨env, .requestJobCancel j reason revision actor⟩ t =
        (.ok outcome, t') →
      ∀ later t'', (repository H).Extends NoFlagParked
          ((⟨env, .requestJobCancel j reason revision actor⟩, .ok outcome) :: h) t' later t'' →
        (∀ reset, JobAction.retry reset ∉ actions j later) →
        (∃ row', t''.job? j = some row' ∧ row'.status ≠ .succeeded) ∧
          ∀ a ∈ actions j later, a.hands = false := by
  refine ⟨fun j row hrow hflag => flagSettled_of_run hrun hrow hflag, ?_⟩
  intro j reason revision actor outcome row hrow hlive hstep later t'' hext hretry
  have hperform := step_ok hstep
  rw [perform] at hperform
  obtain ⟨record, hbody, -⟩ := Txn.run_map_eq_ok.mp hperform
  have hmove := move_cancel hbody j
  rw [if_pos rfl] at hmove
  obtain ⟨row', hrow', hdoomed⟩ : ∃ row', t'.job? j = some row' ∧ Doomed row'.control := by
    cases hmove with
    | @moved before after action found found' hstep' =>
        obtain rfl := Option.some.inj (hrow.symm.trans found)
        exact ⟨after, found', doomed_of_request (flagSettled_of_run hrun hrow) hlive hstep'⟩
  obtain ⟨⟨row'', hrow'', hdoomed''⟩, hhands⟩ := doomed_of_extends hrow' hdoomed hext hretry
  exact ⟨⟨row'', hrow'', hdoomed''.not_succeeded⟩, hhands⟩

/-- The worker `A` has started the job. -/
def startedByA : List (ℚ × Op) := leasedToA ++ [(1, .startJob "j" "A" 1 false none none)]

/-- Finishing a job does not retry it. -/
theorem finish_retries_nothing (j : String) (e : Env) (jobId status owner : String) (epoch : Nat)
    (r : Except Raised Outcome) (reset : Bool) :
    JobAction.retry reset ∉
      actions j [(⟨e, .finishJob jobId status owner epoch "" "" none "" none⟩, r)] := by
  intro hmem
  obtain ⟨entry, hentry, haction⟩ := List.mem_filterMap.mp hmem
  rw [List.mem_singleton.mp hentry] at haction
  cases r with
  | error err => exact absurd (show none = some _ from haction) (by simp)
  | ok outcome =>
      cases outcome with
      | job record =>
          change (if jobId = j then some (JobAction.finish owner epoch e.time record.status)
            else none) = some (JobAction.retry reset) at haction
          split at haction <;> simp at haction
      | _ => exact absurd (show none = some _ from haction) (by simp)

/-- `A` tries to finish a job whose cancellation was requested. -/
theorem cancellation_kept_started :
    ∃ row, ((repository Host.plain).step
        (callAt 3 (.finishJob "j" "succeeded" "A" 1 "" "" none "" none))
        ((repository Host.plain).step (callAt 2 (.requestJobCancel "j" "" none none))
          (afterCalls startedByA).2).2).2.job? "j" = some row ∧ row.status ≠ .succeeded := by
  have hrun : (repository Host.plain).RunWhere NoFlagParked (afterCalls startedByA).1
      (afterCalls startedByA).2 :=
    runWhere_afterCalls _ (by simp [startedByA, leasedToA, callAt, NoFlagParked, ParksFlagged])
  have hfacts : ((afterCalls startedByA).2.job? "j").map (·.status) = some .running ∧
      ((repository Host.plain).step (callAt 2 (.requestJobCancel "j" "" none none))
        (afterCalls startedByA).2).1.isOk = true := by
    decide +kernel
  obtain ⟨hstatus, hok⟩ := hfacts
  obtain ⟨row, hrow, hrunning⟩ := Option.map_eq_some_iff.mp hstatus
  obtain ⟨outcome, hstep⟩ := step_of_isOk hok
  exact ((cancellation_kept hrun).2 "j" "" none none outcome row hrow
    (by rw [hrunning]; decide) hstep _ _
    (.step (l := callAt 3 (.finishJob "j" "succeeded" "A" 1 "" "" none "" none)) .refl
      (fun hparks => hparks) Prod.mk.eta.symm)
    (finish_retries_nothing "j" _ "j" "succeeded" "A" 1 _)).1

/-- `A` parks the job although its cancellation was requested. -/
def parkedUnderFlag : List (ℚ × Op) :=
  startedByA ++ [(2, .requestJobCancel "j" "" none none), (3, .markJobWaiting "j" "A" 1 none none)]

/-- The job is woken, and `B` runs it to its end. -/
def finishedByB : List (ℚ × Op) :=
  parkedUnderFlag ++
    [(4, .wakeJob "j" none none none), (5, .leaseNextJob "B" [] [] 9 none),
      (6, .startJob "j" "B" 2 false none none),
      (7, .finishJob "j" "succeeded" "B" 2 "" "" none "" none)]

/-- **A request is lost.**  Parked under its flag, the job waits with a request
that the next wake clears; it is leased, started and succeeds, and nobody has
retried it. -/
theorem parked_request_lost :
    (repository Host.plain).Run (afterCalls parkedUnderFlag).1 (afterCalls parkedUnderFlag).2 ∧
    ((afterCalls parkedUnderFlag).2.job? "j").map
      (fun row => (row.status, row.cancelRequested)) = some (.waiting, true) ∧
    (repository Host.plain).Run (afterCalls finishedByB).1 (afterCalls finishedByB).2 ∧
    actions "j" (afterCalls finishedByB).1 =
      [.finish "B" 2 7 .succeeded, .start "B" 2 6 false, .lease "B" 2 14 true, .wake,
        .wait "A" 1 3, .requestCancel, .start "A" 1 1 false, .lease "A" 1 9 false,
        .create 2 "unknown_effect"] ∧
    ((afterCalls finishedByB).2.job? "j").map (·.status) = some .succeeded := by
  have hfacts : ((afterCalls parkedUnderFlag).2.job? "j").map
      (fun row => (row.status, row.cancelRequested)) = some (.waiting, true) ∧
    actions "j" (afterCalls finishedByB).1 =
      [.finish "B" 2 7 .succeeded, .start "B" 2 6 false, .lease "B" 2 14 true, .wake,
        .wait "A" 1 3, .requestCancel, .start "A" 1 1 false, .lease "A" 1 9 false,
        .create 2 "unknown_effect"] ∧
    ((afterCalls finishedByB).2.job? "j").map (·.status) = some .succeeded := by
    decide +kernel
  exact ⟨run_afterCalls _, hfacts.1, run_afterCalls _, hfacts.2⟩

end WorkFabric
end VariantOne
