import VariantOne.Lib.Txn
import VariantOne.ModelRuntime.UsageLedger

/-!
# Rollups equal the ledger

Every row of the rollup table is the aggregate recomputed from the requests it counts for
(`usage_rollups_exact`): `rollupDeltas` is the difference of the recomputed aggregates of
the row before and after a patch, whatever was merged, so the library's invariant
`Rollup.Exact` is kept by every call.

The totals read off a rollup row then agree with the row scan, except where no request is
selected: the scan adds up nothing to `NULL`, which `_totals_row` leaves in the
`_reported_requests` columns.

`usage_rollups_exact` holds in every run of calls, failing ones included.  One step lemma for each call
reduces it to `Rollup.Exact.insert` or `Rollup.Exact.update`; that the deltas of a patch are differences
is a computation with the counters one by one.
-/

namespace VariantOne
namespace ModelRuntime

variable {P : Interpreter} {L : LedgerHost}

/-! ## 1.  The recomputed aggregate -/

/-- The aggregate of some requests, recomputed. -/
def recomputed (rows : List UsageRequest) : Tally
  | .requests => rows.length
  | .usageObserved => (rows.map fun r => indicator r.usage.isSome).sum
  | .amount f => (knownCounts rows f).sum
  | .known f => (knownCounts rows f).length
  | .reported f => (rows.map fun r => indicator (reports r.usage f)).sum

theorem recomputed_nil : recomputed [] = 0 := by
  funext c
  cases c <;> rfl

theorem recomputed_cons (r : UsageRequest) (rows : List UsageRequest) :
    recomputed (r :: rows) = rollupDeltas 1 none r.usage + recomputed rows := by
  funext c
  have hknown (f : CountField) : knownCounts (r :: rows) f =
      (countOf r.usage f).toList ++ knownCounts rows f := by
    unfold knownCounts
    rw [List.filterMap_cons]
    cases countOf r.usage f <;> rfl
  have hnone (f : CountField) : countOf none f = none := rfl
  cases c with
  | requests =>
      show ((r :: rows).length : ℚ) = 1 + rows.length
      rw [List.length_cons, Nat.cast_succ, add_comm]
  | usageObserved => simp [recomputed, rollupDeltas, indicator]
  | amount f =>
      show (knownCounts (r :: rows) f).sum = _
      rw [hknown, List.sum_append]
      cases hcount : countOf r.usage f <;> simp [recomputed, rollupDeltas, hcount, hnone]
  | known f =>
      show ((knownCounts (r :: rows) f).length : ℚ) = _
      rw [hknown, List.length_append, Nat.cast_add]
      cases hcount : countOf r.usage f <;>
        simp [recomputed, rollupDeltas, hcount, hnone, indicator]
  | reported f => simp [recomputed, rollupDeltas, reports, indicator]

/-- What one request adds to an aggregate. -/
theorem recomputed_singleton (r : UsageRequest) : recomputed [r] = rollupDeltas 1 none r.usage := by
  rw [recomputed_cons, recomputed_nil, add_zero]

/-- Deltas compose. -/
theorem rollupDeltas_sub (before after : Option Usage) :
    rollupDeltas 0 before after = rollupDeltas 1 none after - rollupDeltas 1 none before := by
  funext c
  cases c <;> simp [rollupDeltas, countOf, reports, indicator]

/-- The rollup rows a request counts for, if its day is in range. -/
def identities (L : LedgerHost) (r : UsageRequest) : List RollupKey :=
  match L.day r.startedAt with
  | .ok day => rollupIdentities L r day
  | .error _ => []

theorem nodup_rollupIdentities (r : UsageRequest) (day : String) :
    (rollupIdentities L r day).Nodup := by
  simp [rollupIdentities]

theorem nodup_identities (r : UsageRequest) : (identities L r).Nodup := by
  unfold identities
  split
  · exact nodup_rollupIdentities _ _
  · exact List.nodup_nil

theorem sum_recomputed (rows : List UsageRequest) :
    (rows.map fun r => recomputed [r]).sum = recomputed rows := by
  induction rows with
  | nil => exact recomputed_nil.symm
  | cons r rows ih =>
      rw [List.map_cons, List.sum_cons, ih, recomputed_singleton, ← recomputed_cons]

/-- The aggregate of a group is its rollup total. -/
theorem total_eq_recomputed (rows : List UsageRequest) (k : RollupKey) :
    Rollup.total (identities L) (fun r => recomputed [r]) rows k =
      recomputed (rows.filter fun r => k ∈ identities L r) :=
  sum_recomputed _

theorem applyRollup_eq_ok {r : UsageRequest} {deltas : Tally} {rollup rollup' : List (RollupKey × Tally)}
    (h : applyRollup L r deltas rollup = .ok rollup') :
    (∃ day, L.day r.startedAt = .ok day) ∧
      rollup' = Rollup.addAll (identities L r) deltas rollup := by
  unfold applyRollup at h
  cases hday : L.day r.startedAt with
  | error e =>
      rw [hday] at h
      exact absurd h (by simp [Except.map])
  | ok day =>
      rw [hday] at h
      refine ⟨⟨day, rfl⟩, ?_⟩
      rw [identities, hday]
      exact (Except.ok.inj h).symm

/-! ## 2.  Every call keeps the rollups exact -/

/-- The rollup table of a ledger is exact, and every request has a day. -/
structure Consistent (L : LedgerHost) (s : UsageLedger) : Prop where
  exact : Rollup.Exact (identities L) (fun r => recomputed [r]) s.requests.rows s.rollup
  dated : ∀ r ∈ s.requests.rows, ∃ day, L.day r.startedAt = .ok day

section Calls

variable {s s' : UsageLedger} {reply : LedgerReply}

theorem Consistent.record {manifest : PyDict} {now : ℚ} (hs : Consistent L s)
    (h : record P L manifest now s = (reply, s')) : Consistent L s' := by
  unfold ModelRuntime.record at h
  split at h
  · obtain ⟨-, rfl⟩ := Prod.mk.inj h
    exact hs
  cases hrow : manifestRequest P manifest now with
  | error e =>
      rw [hrow] at h
      obtain ⟨-, rfl⟩ := Prod.mk.inj h
      exact hs
  | ok r =>
      rw [hrow] at h
      dsimp only at h
      split at h
      · obtain ⟨-, rfl⟩ := Prod.mk.inj h
        exact hs
      cases hinsert : s.requests.insert? r with
      | none =>
          rw [hinsert] at h
          obtain ⟨-, rfl⟩ := Prod.mk.inj h
          exact hs
      | some requests =>
          rw [hinsert] at h
          dsimp only at h
          cases hrollup : applyRollup L r (rollupDeltas 1 none none) s.rollup with
          | error e =>
              rw [hrollup] at h
              obtain ⟨-, rfl⟩ := Prod.mk.inj h
              exact hs
          | ok rollup =>
              rw [hrollup] at h
              obtain ⟨-, rfl⟩ := Prod.mk.inj h
              obtain ⟨hday, rfl⟩ := applyRollup_eq_ok hrollup
              obtain ⟨-, hrows⟩ := Table.insert?_eq_some hinsert
              have husage : r.usage = none := by
                simp only [manifestRequest, except_bind_eq_ok] at hrow
                obtain ⟨_, -, _, -, _, -, _, -, hrow⟩ := hrow
                rw [← Except.ok.inj hrow]
              have htally : rollupDeltas 1 none none = recomputed [r] := by
                rw [recomputed_singleton, husage]
              refine ⟨?_, fun x hx => ?_⟩
              · show Rollup.Exact _ _ requests.rows _
                rw [hrows, htally]
                exact hs.exact.insert (nodup_identities r)
              · rw [hrows] at hx
                rcases List.mem_append.mp hx with hx | hx
                · exact hs.dated x hx
                · obtain rfl := List.mem_singleton.mp hx
                  exact hday

/-- A patch of one request, whose deltas are those of its usage. -/
theorem Consistent.patch {identity : String} {r : UsageRequest} {f : UsageRequest → UsageRequest}
    {rollup : List (RollupKey × Tally)} (hs : Consistent L s)
    (hf : ∀ r, (f r).manifestId = r.manifestId) (hfind : s.requests.find? identity = some r)
    (hgroups : identities L (f r) = identities L r) (hstarted : (f r).startedAt = r.startedAt)
    (hrollup : (f r).usage = r.usage ∧ rollup = s.rollup ∨
      rollup = Rollup.addAll (identities L r) (rollupDeltas 0 r.usage (f r).usage) s.rollup) :
    Consistent L { s.update identity f hf with rollup := rollup } := by
  obtain ⟨before, after, hrows, hrows'⟩ := Table.rows_update_of_find? hfind f hf
  have hexact := hs.exact
  rw [hrows] at hexact
  constructor
  · show Rollup.Exact _ _ (s.requests.updateWhere _ f hf).rows rollup
    rw [hrows']
    rcases hrollup with ⟨husage, rfl⟩ | rfl
    · refine hexact.frame hgroups ?_
      rw [recomputed_singleton, recomputed_singleton, husage]
    · have hdelta : rollupDeltas 0 r.usage (f r).usage = recomputed [f r] - recomputed [r] := by
        rw [recomputed_singleton, recomputed_singleton, rollupDeltas_sub]
      rw [hdelta]
      exact hexact.update (nodup_identities r) hgroups
  · intro x hx
    have hx : x ∈ before ++ f r :: after := hrows' ▸ hx
    have hold (y : UsageRequest) (hy : y ∈ before ++ r :: after) : ∃ day, L.day y.startedAt = .ok day :=
      hs.dated y (hrows ▸ hy)
    rcases List.mem_append.mp hx with hx | hx
    · exact hold x (List.mem_append_left _ hx)
    · rcases List.mem_cons.mp hx with rfl | hx
      · rw [hstarted]
        exact hold r (by simp)
      · exact hold x (by simp [hx])

theorem Consistent.patchUsage {identity : String} {usage : PyDict} {isMerge : Bool}
    (hs : Consistent L s) (h : patchUsage P L identity usage isMerge s = (reply, s')) :
    Consistent L s' := by
  unfold ModelRuntime.patchUsage at h
  cases hfind : s.requests.find? (ledgerIdentity identity) with
  | none =>
      rw [hfind] at h
      obtain ⟨-, rfl⟩ := Prod.mk.inj h
      exact hs
  | some r =>
      rw [hfind] at h
      dsimp only at h
      cases hrollup : applyRollup L r
          (rollupDeltas 0 r.usage (some (patchedUsage P usage isMerge r.usage))) s.rollup with
      | error e =>
          rw [hrollup] at h
          obtain ⟨-, rfl⟩ := Prod.mk.inj h
          exact hs
      | ok rollup =>
          rw [hrollup] at h
          obtain ⟨-, rfl⟩ := Prod.mk.inj h
          exact hs.patch _ hfind rfl rfl (.inr (applyRollup_eq_ok hrollup).2)

/-- A patch that leaves the usage. -/
theorem Consistent.update {identity : String} {f : UsageRequest → UsageRequest}
    {hf : ∀ r, (f r).manifestId = r.manifestId} (hs : Consistent L s)
    (hgroups : ∀ r, identities L (f r) = identities L r)
    (hstarted : ∀ r, (f r).startedAt = r.startedAt) (husage : ∀ r, (f r).usage = r.usage) :
    Consistent L (s.update identity f hf) := by
  cases hfind : s.requests.find? identity with
  | some r => exact hs.patch hf hfind (hgroups r) (hstarted r) (.inl ⟨husage r, rfl⟩)
  | none =>
      have hnone : ∀ r ∈ s.requests.rows, r.manifestId ≠ identity := fun r hr hid =>
        Table.find?_eq_none_iff.mp hfind (hid ▸ List.mem_map_of_mem hr)
      have hrows : (s.update identity f hf).requests.rows = s.requests.rows := by
        show s.requests.rows.map _ = _
        refine (List.map_congr_left fun r hr => ?_).trans (List.map_id _)
        rw [if_neg (by simpa using hnone r hr)]
        rfl
      refine ⟨?_, fun r hr => hs.dated r (hrows ▸ hr)⟩
      rw [hrows]
      exact hs.exact

theorem Consistent.step {call : LedgerCall} (hs : Consistent L s)
    (h : UsageLedger.step P L call s = (reply, s')) : Consistent L s' := by
  cases call with
  | record manifest now => exact hs.record h
  | patchUsage identity usage isMerge => exact hs.patchUsage h
  | patchResponse identity metadata =>
      simp only [UsageLedger.step, patchResponse] at h
      split at h
      · obtain ⟨-, rfl⟩ := Prod.mk.inj h
        exact hs
      · obtain ⟨-, rfl⟩ := Prod.mk.inj h
        exact hs.update (fun _ => rfl) (fun _ => rfl) (fun _ => rfl)
  | patchStreamDiagnostics identity value =>
      simp only [UsageLedger.step, patchStreamDiagnostics] at h
      split at h
      · obtain ⟨-, rfl⟩ := Prod.mk.inj h
        exact hs
      · split at h
        · obtain ⟨-, rfl⟩ := Prod.mk.inj h
          exact hs
        · obtain ⟨-, rfl⟩ := Prod.mk.inj h
          exact hs.update (fun _ => rfl) (fun _ => rfl) (fun _ => rfl)
  | patchTerminal identity outcome duration now =>
      simp only [UsageLedger.step, patchTerminal] at h
      split at h
      · obtain ⟨-, rfl⟩ := Prod.mk.inj h
        exact hs
      · obtain ⟨-, rfl⟩ := Prod.mk.inj h
        exact hs.update (fun _ => rfl) (fun _ => rfl) (fun _ => rfl)

end Calls

theorem consistent_of_run {h : List (LedgerCall × LedgerReply)} {s : UsageLedger}
    (hrun : (usageLedger P L).Run h s) : Consistent L s := by
  refine hrun.invariant (I := fun _ s => Consistent L s) ⟨Rollup.exact_nil, ?_⟩ ?_
  · exact fun r hr => absurd hr (by simp [usageLedger, UsageLedger.empty])
  · intro h s call reply s' _ hs hstep
    exact hs.step hstep

/-! ## 3.  Totals -/

/-- Over some requests, the columns of the scan and of a rollup row give the same totals. -/
theorem totalsRow_scanColumns {rows : List UsageRequest} (hrows : rows ≠ []) :
    totalsRow (some (scanColumns rows)) = totalsRow (some fun c => some (recomputed rows c)) := by
  have hcount (p : UsageRequest → Bool) :
      ((rows.countP p : ℕ) : ℚ) = (rows.map fun r => indicator (p r)).sum := by
    induction rows with
    | nil => rfl
    | cons r rows ih =>
        by_cases hnil : rows = []
        · subst hnil
          cases hp : p r <;> simp [indicator, hp]
        · rw [List.countP_cons, List.map_cons, List.sum_cons, ← ih hnil, Nat.cast_add, add_comm]
          cases hp : p r <;> simp [indicator]
  funext c
  cases c with
  | requests => rfl
  | usageObserved => exact congrArg some (hcount _)
  | known f => rfl
  | reported f =>
      show sqlSum _ = some _
      unfold sqlSum
      rw [if_neg (by simpa using hrows)]
      rfl
  | amount f =>
      show (if _ then none else sqlSum _) = if _ then none else some _
      by_cases hknown : (knownCounts rows f).length = 0
      · rw [if_pos (by simp [scanColumns, hknown]), if_pos (by simp [recomputed, hknown])]
      · have hne : ((knownCounts rows f).length : ℚ) ≠ 0 := by exact_mod_cast hknown
        rw [if_neg (by simpa [scanColumns] using hne), if_neg (by simpa [recomputed] using hne), sqlSum,
          if_neg (by rw [List.isEmpty_iff, ← List.length_eq_zero_iff]; exact hknown)]
        rfl

/-- The totals of a group agree with its scan exactly if the group has a request. -/
theorem totalsRow_rollup_iff {s : UsageLedger} (hs : Consistent L s) {k : RollupKey}
    {p : UsageRequest → Bool} (hk : ∀ r ∈ s.requests.rows, k ∈ identities L r ↔ p r = true) :
    totalsRow ((Dict.get? s.rollup k).map fun row c => some (row c)) =
        totalsRow (some (scanColumns (s.requests.rows.filter p))) ↔
      ∃ r ∈ s.requests.rows, p r = true := by
  have hfilter : (s.requests.rows.filter fun r => k ∈ identities L r) = s.requests.rows.filter p :=
    List.filter_congr fun r hr => by
      rw [Bool.eq_iff_iff, decide_eq_true_iff]
      exact hk r hr
  have hexists : (∃ r ∈ s.requests.rows, k ∈ identities L r) ↔ ∃ r ∈ s.requests.rows, p r = true :=
    exists_congr fun r => and_congr_right fun hr => hk r hr
  rw [hs.exact k, total_eq_recomputed, hfilter]
  by_cases hrow : ∃ r ∈ s.requests.rows, p r = true
  · rw [if_pos (hexists.mpr hrow)]
    have hne : s.requests.rows.filter p ≠ [] := by
      obtain ⟨r, hr, hp⟩ := hrow
      exact List.ne_nil_of_mem (List.mem_filter.mpr ⟨hr, hp⟩)
    exact ⟨fun _ => hrow, fun _ => (totalsRow_scanColumns hne).symm⟩
  · rw [if_neg (hexists.not.mpr hrow)]
    have hnil : s.requests.rows.filter p = [] :=
      List.filter_eq_nil_iff.mpr fun r hr hp => hrow ⟨r, hr, hp⟩
    refine ⟨fun heq => ?_, fun h => absurd h hrow⟩
    rw [hnil] at heq
    -- No request is selected: the scan reports `NULL`, the absent rollup row zero.
    have hreported := congrFun heq (.reported .costUsd)
    exact absurd hreported (by simp [totalsRow, scanColumns, sqlSum])

/-- **Rollups equal the ledger**, and the totals by session or by goal agree with the row
scan exactly where some request is selected. -/
theorem usage_rollups_exact {h : List (LedgerCall × LedgerReply)} {s : UsageLedger}
    (hrun : (usageLedger P L).Run h s) :
    (∀ k, Dict.get? s.rollup k =
      if ∃ r ∈ s.requests.rows, k ∈ identities L r then
        some (recomputed (s.requests.rows.filter fun r => k ∈ identities L r))
      else none) ∧
    (∀ sessionId, sessionId ≠ "" → (totals sessionId "" s = rowScan sessionId "" s ↔
      ∃ r ∈ s.requests.rows, r.sessionId = sessionId)) ∧
    ∀ goalId, goalId ≠ "" → (totals "" goalId s = rowScan "" goalId s ↔
      ∃ r ∈ s.requests.rows, r.goalId = goalId) := by
  have hs := consistent_of_run hrun
  refine ⟨fun k => ?_, fun sessionId hsession => ?_, fun goalId hgoal => ?_⟩
  · rw [hs.exact k, total_eq_recomputed]
  · have hselected (r : UsageRequest) : selected sessionId "" r = true ↔ r.sessionId = sessionId := by
      simp [selected, hsession]
    have hk : ∀ r ∈ s.requests.rows,
        (⟨.session, sessionId⟩ : RollupKey) ∈ identities L r ↔ selected sessionId "" r = true := by
      intro r hr
      obtain ⟨day, hday⟩ := hs.dated r hr
      rw [hselected, identities, hday]
      simp [rollupIdentities, eq_comm]
    have hiff := totalsRow_rollup_iff hs hk
    simp only [hselected] at hiff
    rw [totals, if_neg (by simp), rollupKey, if_pos hsession]
    exact hiff
  · have hselected (r : UsageRequest) : selected "" goalId r = true ↔ r.goalId = goalId := by
      simp [selected, hgoal]
    have hk : ∀ r ∈ s.requests.rows,
        (⟨.goal, goalId⟩ : RollupKey) ∈ identities L r ↔ selected "" goalId r = true := by
      intro r hr
      obtain ⟨day, hday⟩ := hs.dated r hr
      rw [hselected, identities, hday]
      simp [rollupIdentities, eq_comm]
    have hiff := totalsRow_rollup_iff hs hk
    simp only [hselected] at hiff
    rw [totals, if_neg (by simp), rollupKey, if_neg (by simp), if_pos hgoal]
    exact hiff

/-! ### Concrete runs -/

/-- An interpreter for manifests of texts. -/
def textInterpreter : Interpreter :=
  ⟨fun _ => "", id, fun _ => none, id, fun _ => none, fun _ => .ok ""⟩

/-- A host on the first day. -/
def firstDayHost : LedgerHost :=
  ⟨fun _ => .ok "1970-01-01", fun provider model => provider ++ " " ++ model, fun _ => []⟩

/-- A request of session `s`. -/
def sessionManifest : PyDict :=
  [("manifest_id", .str "m"), ("run", .dict [("session_id", .str "s")])]

/-- A request and its usage, reported twice. -/
theorem usage_rollups_exact_patched :
    ∃ h s, (usageLedger textInterpreter firstDayHost).Run h s ∧ h.length = 3 ∧
      totals "s" "" s = rowScan "s" "" s ∧ totals "s" "" s (.amount .inputTokens) = some 5 ∧
      totals "s" "" s (.amount .outputTokens) = some 2 := by
  have hrun := Machine.Run.exec (Machine.Run.start (M := usageLedger textInterpreter firstDayHost))
    [.record sessionManifest 0, .patchUsage "m" [("input_tokens", .int 5)] true,
      .patchUsage "m" [("output_tokens", .int 2)] true]
  refine ⟨_, _, hrun, rfl, ?_, by decide +kernel, by decide +kernel⟩
  exact ((usage_rollups_exact hrun).2.1 "s" (by decide)).mpr (by decide +kernel)

/-- Without a selected request, the scan leaves `NULL` where the rollup has zero. -/
theorem scan_of_nothing :
    ∃ h s, (usageLedger textInterpreter firstDayHost).Run h s ∧
      totals "a" "" s (.reported .costUsd) = some 0 ∧
      rowScan "a" "" s (.reported .costUsd) = none ∧
      totals "a" "b" s (.reported .costUsd) = none :=
  ⟨[], _, .start, by decide, by decide, by decide⟩

end ModelRuntime
end VariantOne
