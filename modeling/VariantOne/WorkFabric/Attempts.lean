import VariantOne.WorkFabric.JobRefinement

/-!
# Attempts

A job allows `max_attempts` attempts.  A lease is charged one unless it continues
earlier work, and the flag for that (`continuation`) is set where a handler parks
its job and where recovery takes back a lease before its handler started.

## 1.  The budget

`Budgeted` says that the attempts stay within the limit and that a job which waits
for a lease can be given one: it has an attempt left or continues earlier work.
Every step keeps it, so no queued job is stranded (`budgeted_step`).

## 2.  Charges and starts

`startsSince`, `pendingCharge` and `lostCharges` are read off the actions done to a
job since it was created or last reset: how many handlers were started, whether the
newest charged lease still waits for its start, and how many charged leases never
had one.  Every attempt is one of the three (`charged_step`).

Recovery takes back an unstarted lease and lets the next one continue it, as long
as an attempt is left.  On the last attempt it gives up instead, and the charge of
a handler that never ran decides the job.  `attempts_accounted` says what holds
when every charge was answered by a start; `failed_unstarted` is a job that fails
without having been started once.
-/

namespace VariantOne
namespace WorkFabric

open JobControl

/-! ## 1.  The budget -/

/-- The states in which a job waits to be leased, now or later. -/
def JobStatus.idle : List JobStatus := [.queued, .waiting, .paused]

/-- Attempts stay within a positive limit, and an idle job can still be leased. -/
structure Budgeted (c : JobControl) : Prop where
  limit : 0 < c.maxAttempts
  within : c.attempt ≤ c.maxAttempts
  leasable : c.status ∈ JobStatus.idle → c.attempt < c.maxAttempts ∨ c.continuation = true

theorem Budgeted.of_busy {c c' : JobControl} (h : Budgeted c)
    (hmax : c'.maxAttempts = c.maxAttempts) (hattempt : c'.attempt = c.attempt)
    (hbusy : c'.status ∉ JobStatus.idle) : Budgeted c' where
  limit := hmax ▸ h.limit
  within := by rw [hmax, hattempt]; exact h.within
  leasable := fun hidle => absurd hidle hbusy

theorem terminal_not_idle {s : JobStatus} (h : s ∈ JobStatus.terminal) :
    s ∉ JobStatus.idle := by
  revert h
  cases s <;> decide

theorem leased_not_idle {s : JobStatus} (h : s ∈ JobStatus.leasedStates) :
    s ∉ JobStatus.idle := by
  revert h
  cases s <;> decide

/-- **Every step keeps the budget.** -/
theorem budgeted_step {c c' : JobControl} {a : JobAction} (h : Budgeted c)
    (hstep : Step c a c') : Budgeted c' := by
  cases hstep with
  | again | progress | cancelAgain | acknowledged => exact h
  | lease _ _ allowed =>
      refine ⟨h.limit, ?_, fun hidle => absurd hidle (by simp [JobStatus.idle])⟩
      cases hcont : c.continuation with
      | true => exact h.within
      | false =>
          have hleft : c.attempt < c.maxAttempts :=
            allowed.resolve_right (by rw [hcont]; decide)
          exact hleft
  | start => exact h.of_busy rfl rfl (by simp [JobStatus.idle])
  | heartbeat held => exact h.of_busy rfl rfl (leased_not_idle held.1)
  | wait => exact ⟨h.limit, h.within, fun _ => Or.inr rfl⟩
  | wake parked =>
      refine ⟨h.limit, h.within, fun _ => h.leasable ?_⟩
      rcases parked with hs | hs <;> rw [hs] <;> decide
  | pause idle =>
      refine ⟨h.limit, h.within, fun _ => h.leasable ?_⟩
      rcases idle with hs | hs <;> rw [hs] <;> decide
  | cancelNow | acknowledge => exact h.of_busy rfl rfl (by simp [JobStatus.idle])
  | cancelLater running _ =>
      refine h.of_busy rfl rfl ?_
      rw [show c.status = .running from running]
      decide
  | finish _ terminal _ => exact h.of_busy rfl rfl (terminal_not_idle terminal)
  | @release owner epoch now unknown held =>
      rcases c.releaseTarget_cases unknown with
        ⟨-, ht⟩ | ⟨-, ht⟩ | ⟨-, hleft, -⟩ | ⟨-, ht⟩
      · exact h.of_busy rfl rfl (by rw [unleased_status, ht]; decide)
      · exact h.of_busy rfl rfl (by rw [unleased_status, ht]; decide)
      · exact ⟨h.limit, h.within, fun _ => Or.inl hleft⟩
      · exact h.of_busy rfl rfl (by rw [unleased_status, ht]; decide)
  | @retry reset _ allowed =>
      cases reset with
      | true => exact ⟨h.limit, Nat.zero_le _, fun _ => Or.inl h.limit⟩
      | false =>
          have hleft : c.attempt < c.maxAttempts := allowed.resolve_left (by decide)
          exact ⟨h.limit, h.within, fun _ => Or.inl hleft⟩
  | recover =>
      have hbusy : ∀ s, c.recoverTarget = s → s ∉ JobStatus.idle → c.recoverTarget ∉ JobStatus.idle :=
        fun s hs hns => hs ▸ hns
      rcases c.recoverTarget_cases with ⟨-, ht⟩ | ⟨-, hleft, -⟩ | ⟨-, -, ht⟩ | ⟨-, ht⟩
      · exact h.of_busy rfl rfl (hbusy _ ht (by decide))
      · exact ⟨h.limit, h.within, fun _ => Or.inl hleft⟩
      · exact h.of_busy rfl rfl (hbusy _ ht (by decide))
      · exact h.of_busy rfl rfl (hbusy _ ht (by decide))

/-! ## 2.  Charges and starts -/

/-- The handler starts since creation or the last reset. -/
def startsSince : List JobAction → Nat
  | [] => 0
  | .start .. :: as => startsSince as + 1
  | .retry true :: _ => 0
  | _ :: as => startsSince as

/-- The newest charged lease has not been started. -/
def pendingCharge : List JobAction → Bool
  | [] => false
  | .lease _ _ _ false :: _ => true
  | .start .. :: _ => false
  | .retry true :: _ => false
  | _ :: as => pendingCharge as

/-- The charged leases that were followed by another one before any start. -/
def lostCharges : List JobAction → Nat
  | [] => 0
  | .lease _ _ _ false :: as => lostCharges as + (pendingCharge as).toNat
  | .retry true :: _ => 0
  | _ :: as => lostCharges as

/-- Every lease charged since creation or the last reset was started. -/
def ChargesStarted (as : List JobAction) : Prop :=
  pendingCharge as = false ∧ lostCharges as = 0

/-- Every attempt was started, waits for its start or was lost. -/
def Charged (as : List JobAction) (c : JobControl) : Prop :=
  c.attempt ≤ startsSince as + lostCharges as + (pendingCharge as).toNat

/-- An action that charges, starts and resets nothing. -/
theorem Charged.of_other {as : List JobAction} {c c' : JobControl} {a : JobAction}
    (h : Charged as c) (hattempt : c'.attempt = c.attempt)
    (hstarts : startsSince (a :: as) = startsSince as)
    (hpending : pendingCharge (a :: as) = pendingCharge as)
    (hlost : lostCharges (a :: as) = lostCharges as) : Charged (a :: as) c' := by
  rw [Charged, hattempt, hstarts, hpending, hlost]
  exact h

/-- **Every step keeps the account of the attempts.** -/
theorem charged_step {as : List JobAction} {c c' : JobControl} {a : JobAction}
    (h : Charged as c) (hstep : Step c a c') : Charged (a :: as) c' := by
  cases hstep with
  | lease =>
      unfold Charged at h ⊢
      cases hcont : c.continuation with
      | true => simpa [startsSince, lostCharges, pendingCharge] using h
      | false =>
          simp only [startsSince, lostCharges, pendingCharge, Bool.toNat_true, Bool.false_eq_true,
            if_false]
          omega
  | start =>
      unfold Charged at h ⊢
      have hone := Bool.toNat_le (pendingCharge as)
      simp only [startsSince, lostCharges, pendingCharge, Bool.toNat_false]
      omega
  | @retry reset =>
      cases reset with
      | true => exact Nat.zero_le _
      | false => exact h.of_other rfl rfl rfl rfl
  | again | heartbeat | progress | wait | wake | pause | cancelNow | cancelLater | cancelAgain
  | acknowledge | acknowledged | finish | release | recover => exact h.of_other rfl rfl rfl rfl

/-- Where every charge was started, the starts cover the attempts. -/
theorem Charged.le_starts {as : List JobAction} {c : JobControl} (h : Charged as c)
    (hstarted : ChargesStarted as) : c.attempt ≤ startsSince as := by
  rw [Charged, hstarted.1, hstarted.2] at h
  exact h

/-! ## 3.  Over runs of the repository -/

variable {H : Host} {env : Env} {h : History} {t t' : Tables}

/-- The budget and the account hold of every job in every reachable state. -/
theorem budgeted_of_run (hrun : (repository H).Run h t) {j : String} {row : JobRow}
    (hrow : t.job? j = some row) : Budgeted row.control ∧ Charged (actions j h) row.control := by
  have hjob : JobRun (fun _ _ _ => True) (actions j h) row.control :=
    (jobRun_of_run (fun _ _ _ _ _ _ _ _ _ _ _ _ => trivial) hrun.runWhere j).1 row hrow
  refine hjob.invariant (I := fun as c => Budgeted c ∧ Charged as c) (fun m p hm => ?_) ?_
  · exact ⟨⟨hm, Nat.zero_le _, fun _ => Or.inl hm⟩, Nat.zero_le _⟩
  · intro as c a c' _ hi _ hstep
    exact ⟨budgeted_step hi.1 hstep, charged_step hi.2 hstep⟩

/-- A job that recovery takes from `leased` to `failed` has no attempt left. -/
theorem exhausted_of_recovered {c c' : JobControl} {now : ℚ} (hstep : Step c (.recover now) c')
    (hleased : c.status = .leased) (hfailed : c'.status = .failed) :
    c.maxAttempts ≤ c.attempt := by
  cases hstep with
  | recover =>
      have htarget : c.recoverTarget = .failed := hfailed
      unfold JobControl.recoverTarget at htarget
      rw [if_pos hleased] at htarget
      split at htarget
      · exact absurd htarget (by decide)
      · split at htarget
        · exact absurd htarget (by decide)
        · omega

/-- **Attempts.**  In every reachable state a job has used at most as many
attempts as it allows, and a queued job that is not being cancelled can be leased
once it is due.  Recovery takes a job whose charges were all started from `leased`
to `failed` only after as many starts as it allows attempts. -/
theorem attempts_accounted (hrun : (repository H).Run h t) :
    (∀ j row, t.job? j = some row → row.attempt ≤ row.maxAttempts ∧
      (row.status = .queued → row.cancelRequested = false →
        (row.attempt < row.maxAttempts ∨ row.continuation = true) ∧
        ∀ now, row.availableAt ≤ now → leasable now [] [] row = true)) ∧
    ∀ now outcome t',
      (repository H).step ⟨env, .recoverExpiredJobLeases now⟩ t = (.ok outcome, t') →
      ∀ j row row', t.job? j = some row → t'.job? j = some row' → row.status = .leased →
        row'.status = .failed → ChargesStarted (actions j h) →
        row.maxAttempts ≤ startsSince (actions j h) := by
  refine ⟨fun j row hrow => ?_, ?_⟩
  · obtain ⟨hbudget, -⟩ := budgeted_of_run hrun hrow
    refine ⟨hbudget.within, fun hqueued hopen => ?_⟩
    have hleft : row.attempt < row.maxAttempts ∨ row.continuation = true :=
      hbudget.leasable (by rw [show row.control.status = .queued from hqueued]; decide)
    refine ⟨hleft, fun now hdue => ?_⟩
    simp only [leasable, hqueued, hdue, hopen]
    simpa using hleft
  · intro now outcome t' hstep j row row' hrow hrow' hleased hfailed hstarted
    have hperform := step_ok hstep
    rw [perform] at hperform
    obtain ⟨records, hbody, -⟩ := Txn.run_map_eq_ok.mp hperform
    have hmove := move_recover hbody j
    obtain ⟨-, hcharged⟩ := budgeted_of_run hrun hrow
    refine le_trans ?_ (hcharged.le_starts hstarted)
    split at hmove
    · cases hmove with
      | @moved before after _ found found' hstep' =>
          obtain rfl := Option.some.inj (hrow.symm.trans found)
          obtain rfl := Option.some.inj (hrow'.symm.trans found')
          exact exhausted_of_recovered hstep' hleased hfailed
    · cases hmove with
      | kept same =>
          rw [same, hrow, Option.some.injEq] at hrow'
          rw [← hrow', hleased] at hfailed
          exact absurd hfailed (by decide)

/-- A job that allows one attempt is created and leased to `A`. -/
def lastLeaseOfA : List (ℚ × Op) :=
  [(0, .createJob { kind := "k", ownerKind := "chat", ownerId := "o", jobId := "j" }),
    (0, .leaseNextJob "A" [] [] 9 none)]

/-- `A` starts the job and parks it; woken, it is leased to `B`. -/
def continuedByB : List (ℚ × Op) :=
  lastLeaseOfA ++
    [(1, .startJob "j" "A" 1 false none none), (2, .markJobWaiting "j" "A" 1 none none),
      (3, .wakeJob "j" none none none), (4, .leaseNextJob "B" [] [] 9 none)]

/-- The lease of `B` expires.  The one attempt was started, and the job fails. -/
theorem attempts_accounted_continued :
    1 ≤ startsSince (actions "j" (afterCalls continuedByB).1) := by
  have hfacts : ((afterCalls continuedByB).2.job? "j").map
        (fun row => (row.status, row.maxAttempts)) = some (.leased, 1) ∧
      ((repository Host.plain).step (callAt 20 (.recoverExpiredJobLeases none))
        (afterCalls continuedByB).2).1.isOk = true ∧
      (((repository Host.plain).step (callAt 20 (.recoverExpiredJobLeases none))
        (afterCalls continuedByB).2).2.job? "j").map (·.status) = some .failed ∧
      pendingCharge (actions "j" (afterCalls continuedByB).1) = false ∧
      lostCharges (actions "j" (afterCalls continuedByB).1) = 0 := by
    decide +kernel
  obtain ⟨hbefore, hok, hafter, hstarted⟩ := hfacts
  obtain ⟨row, hrow, hcolumns⟩ := Option.map_eq_some_iff.mp hbefore
  obtain ⟨row', hrow', hfailed⟩ := Option.map_eq_some_iff.mp hafter
  obtain ⟨hleased, hmax⟩ := Prod.mk.inj hcolumns
  obtain ⟨outcome, hstep⟩ := step_of_isOk hok
  rw [← hmax]
  exact (attempts_accounted (run_afterCalls continuedByB)).2 none outcome _
    hstep "j" row row' hrow hrow' hleased hfailed hstarted

/-- **A job fails unstarted.**  Its only lease expires before the handler is
started; recovery takes it from `leased` to `failed`, with no start at all. -/
theorem failed_unstarted :
    (repository Host.plain).Run (afterCalls lastLeaseOfA).1 (afterCalls lastLeaseOfA).2 ∧
    ((afterCalls lastLeaseOfA).2.job? "j").map (fun row => (row.status, row.maxAttempts)) =
      some (.leased, 1) ∧
    (((repository Host.plain).step (callAt 20 (.recoverExpiredJobLeases none))
      (afterCalls lastLeaseOfA).2).2.job? "j").map (·.status) = some .failed ∧
    startsSince (actions "j" (afterCalls lastLeaseOfA).1) = 0 := by
  refine ⟨run_afterCalls _, ?_⟩
  decide +kernel

end WorkFabric
end VariantOne
