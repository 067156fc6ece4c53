import VariantOne.WorkFabric.EventLog

/-!
# What a call adds

Five calls rewrite rows of the outbox or of the projections.  Every other call only adds to the log, a fresh
outbox row with each event: `grows_of_perform`.  In a run, therefore, the log is only ever appended to.

`Grows` allows new events with a pending outbox row for each, and new or rewritten jobs; it is reflexive
and transitive, so it passes from commits to recoveries and from calls to runs.  The delivery of events
reads from it that a row of the log is never changed or taken away.
-/

namespace VariantOne
namespace WorkFabric

variable {H : Host} {env : Env} {t t' t'' : Tables}

/-- The calls that rewrite rows of the outbox or of the projections. -/
def Op.rewrites : Op → Bool
  | .claimOutbox .. | .acknowledgeOutbox .. | .rejectOutbox .. | .recoverExpiredOutbox _
  | .reduceProjection .. => true
  | _ => false

/-- A row of the outbox as it is inserted. -/
def OutboxRow.Fresh (o : OutboxRow) : Prop := ∃ outboxId event now, o = newOutboxRow outboxId event now

/-- The log and the outbox have grown and the projections are what they were. -/
structure Grows (t t' : Tables) : Prop where
  events : ∃ new, t'.events.rows = t.events.rows ++ new
  outbox : ∃ new, t'.outbox.rows = t.outbox.rows ++ new ∧ ∀ o ∈ new, o.Fresh
  projections : t'.projections = t.projections

theorem Grows.refl (t : Tables) : Grows t t :=
  ⟨⟨[], (List.append_nil _).symm⟩, ⟨[], (List.append_nil _).symm, by simp⟩, rfl⟩

theorem Grows.trans (h : Grows t t') (h' : Grows t' t'') : Grows t t'' := by
  obtain ⟨events, hevents⟩ := h.events
  obtain ⟨events', hevents'⟩ := h'.events
  obtain ⟨rows, hrows, hfresh⟩ := h.outbox
  obtain ⟨rows', hrows', hfresh'⟩ := h'.outbox
  refine ⟨⟨events ++ events', by rw [hevents', hevents, List.append_assoc]⟩,
    ⟨rows ++ rows', by rw [hrows', hrows, List.append_assoc], fun o ho => ?_⟩,
    h'.projections.trans h.projections⟩
  rcases List.mem_append.mp ho with ho | ho
  · exact hfresh o ho
  · exact hfresh' o ho

theorem Logged.grows {event : WorkEvent} (h : Logged t t' event) : Grows t t' := by
  obtain ⟨outboxId, now, -, hrows⟩ := h.outbox
  refine ⟨⟨_, h.events⟩, ⟨_, hrows, fun o ho => ?_⟩, h.projections⟩
  exact ⟨outboxId, event, now, List.mem_singleton.mp ho⟩

theorem OnlyJobs.grows (h : OnlyJobs t t') : Grows t t' :=
  ⟨⟨[], by rw [h.events, List.append_nil]⟩, ⟨[], by rw [h.outbox, List.append_nil], by simp⟩, h.projections⟩

theorem CommitsJob.grows {jobId : String} {record : JobRecord} {guard : JobRow → Prop}
    {change : JobRow → JobRow} (h : CommitsJob t t' jobId record guard change) : Grows t t' := by
  obtain ⟨row, event, -, -, hcommit, -⟩ := h
  exact hcommit.logged.grows

/-- **A call that rewrites nothing only adds.** -/
theorem grows_of_perform {op : Op} {outcome : Outcome} (hop : op.rewrites = false)
    (h : (perform H env op).run t = .ok (outcome, t')) : Grows t t' := by
  cases op with
  | appendEvent a =>
      obtain ⟨event, hrun, -⟩ := Txn.run_map_eq_ok.mp h
      obtain ⟨c, hc, ⟨-, rfl, -⟩ | ⟨-, happ, -⟩⟩ := insertEvent_ok hrun
      · exact .refl _
      · exact happ.toLogged.grows
  | createJob a =>
      obtain ⟨record, hrun, -⟩ := Txn.run_map_eq_ok.mp h
      obtain ⟨c, fingerprint, -, -, hcases⟩ := createJob_eq_ok hrun
      rcases hcases with ⟨existing, -, -, -, rfl⟩ | ⟨-, manifest, policy, event, -, -, hnew, -⟩
      · exact .refl _
      · rcases hnew.log with ⟨honly, -⟩ | ⟨hlog, -⟩
        · exact honly.grows
        · exact hlog.grows
  | leaseNextJob owner kinds excluded ttl now =>
      obtain ⟨result, hrun, -⟩ := Txn.run_map_eq_ok.mp h
      rcases leaseNextJob_eq_ok hrun with ⟨-, rfl⟩ | ⟨worker, row, event, -, -, -, -, -, hcommit, -⟩
      · exact .refl _
      · exact hcommit.logged.grows
  | startJob jobId owner epoch sync revision now =>
      obtain ⟨record, hrun, -⟩ := Txn.run_map_eq_ok.mp h
      exact (startJob_eq_ok hrun).grows
  | heartbeatJob jobId owner epoch ttl progress now =>
      obtain ⟨record, hrun, -⟩ := Txn.run_map_eq_ok.mp h
      obtain ⟨row, stored, -, -, -, honly⟩ := heartbeatJob_eq_ok hrun
      exact honly.grows
  | updateJobProgress jobId progress owner epoch revision merge actor now =>
      obtain ⟨record, hrun, -⟩ := Txn.run_map_eq_ok.mp h
      obtain ⟨stored, hcommits⟩ := updateJobProgress_eq_ok hrun
      exact hcommits.grows
  | markJobWaiting jobId owner epoch progress now =>
      obtain ⟨record, hrun, -⟩ := Txn.run_map_eq_ok.mp h
      obtain ⟨stored, hcommits⟩ := markJobWaiting_eq_ok hrun
      exact hcommits.grows
  | wakeJob jobId revision available actor =>
      obtain ⟨record, hrun, -⟩ := Txn.run_map_eq_ok.mp h
      exact (wakeJob_eq_ok hrun).grows
  | pauseJob jobId reason revision actor =>
      obtain ⟨record, hrun, -⟩ := Txn.run_map_eq_ok.mp h
      obtain ⟨stored, hcommits⟩ := pauseJob_eq_ok hrun
      exact hcommits.grows
  | requestJobCancel jobId reason revision actor =>
      obtain ⟨record, hrun, -⟩ := Txn.run_map_eq_ok.mp h
      rcases requestJobCancel_eq_ok hrun with ⟨row, -, -, -, rfl⟩ |
        ⟨clean, row, event, -, -, -, hcommit, -⟩
      · exact .refl _
      · exact hcommit.logged.grows
  | acknowledgeJobCancel jobId owner epoch now =>
      obtain ⟨record, hrun, -⟩ := Txn.run_map_eq_ok.mp h
      rcases acknowledgeJobCancel_eq_ok hrun with ⟨row, -, -, hsame⟩ | hcommits
      · exact hsame ▸ .refl _
      · exact hcommits.grows
  | finishJob jobId status owner epoch result diagnostics progress error now =>
      obtain ⟨record, hrun, -⟩ := Txn.run_map_eq_ok.mp h
      obtain ⟨target, -, -, res, diag, clean, stored, hcommits⟩ := finishJob_eq_ok hrun
      exact hcommits.grows
  | commitResult jobId owner epoch before during publish =>
      obtain ⟨record, hrun, -⟩ := Txn.run_map_eq_ok.mp h
      obtain ⟨res, diag, clean, stored, row, event, -, -, -, -, hcommit, -⟩ := commitResult_eq_ok hrun
      exact hcommit.logged.grows
  | releaseJob jobId owner epoch error delay unknown now =>
      obtain ⟨record, hrun, -⟩ := Txn.run_map_eq_ok.mp h
      obtain ⟨clean, hcommits⟩ := releaseJob_eq_ok hrun
      exact hcommits.grows
  | retryJob jobId revision available reset actor =>
      obtain ⟨record, hrun, -⟩ := Txn.run_map_eq_ok.mp h
      exact (retryJob_eq_ok hrun).grows
  | recoverExpiredJobLeases now =>
      obtain ⟨records, hrun, -⟩ := Txn.run_map_eq_ok.mp h
      exact (recoverExpiredJobLeases_eq_ok hrun).preserves (P := Grows t)
        (fun _ _ _ _ _ _ commit hu => hu.trans commit.logged.grows) (.refl t)
  | claimOutbox | acknowledgeOutbox | rejectOutbox | recoverExpiredOutbox | reduceProjection => cases hop
  | projection name =>
      obtain ⟨snapshot, hrun, -⟩ := Txn.run_map_eq_ok.mp h
      exact projection_same hrun ▸ .refl _

/-- What became of an item when the outbox grew. -/
theorem Grows.item? (h : Grows t t') (k : String) :
    t'.outbox.find? k = t.outbox.find? k ∨
      (t.outbox.find? k = none ∧ ∃ o, t'.outbox.find? k = some o ∧ o.Fresh) := by
  obtain ⟨new, hrows, hfresh⟩ := h.outbox
  have hfind : t'.outbox.find? k =
      (t.outbox.find? k).or (new.find? fun o => decide (o.outboxId = k)) := by
    unfold Table.find?
    rw [hrows, List.find?_append]
  cases hold : t.outbox.find? k with
  | some o => exact Or.inl (by rw [hfind, hold, Option.some_or])
  | none =>
      rw [hold, Option.none_or] at hfind
      cases hnew : new.find? fun o => decide (o.outboxId = k) with
      | none => exact Or.inl (hfind.trans hnew)
      | some o => exact Or.inr ⟨rfl, o, hfind.trans hnew, hfresh o (List.mem_of_find?_eq_some hnew)⟩

/-- **The log is only appended to.** -/
theorem Effect.events_grow {op : Op} (h : Effect H env t t' op) :
    ∃ new, t'.events.rows = t.events.rows ++ new := by
  cases h with
  | nothing same => exact ⟨[], by rw [same, List.append_nil]⟩
  | append _ _ appended _ => exact ⟨_, appended.events⟩
  | create creation =>
      rcases creation.log with ⟨honly, -⟩ | ⟨hlog, -⟩
      · exact honly.grows.events
      · exact ⟨_, hlog.events⟩
  | commit _ committed => exact ⟨_, committed.logged.events⟩
  | beat _ only => exact only.grows.events
  | recover recovered =>
      exact (recovered.preserves (P := Grows t) (fun _ _ _ _ _ _ commit hu => hu.trans commit.logged.grows)
        (.refl t)).events
  | outbox mapped => exact ⟨[], by rw [mapped.events, List.append_nil]⟩
  | project only => exact ⟨[], by rw [only.events, List.append_nil]⟩

end WorkFabric
end VariantOne
