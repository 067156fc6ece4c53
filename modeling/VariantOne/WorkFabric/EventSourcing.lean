import VariantOne.WorkFabric.EventLog

/-!
# Jobs are event sourced

Every job operation but the heartbeat advances the job's revision, logs the event
of that version and moves the job's cursor to it, and the log refuses any other
version.  `JobsSourced` is what this comes to: the events of a job carry the
versions `1, …, revision`, the last of them names the state the row is in, and the
cursor is its sequence.

One commit keeps it (`JobsSourced.commit`): the version the log accepts is the
largest so far plus one, which is the old revision plus one, and it is the new
row's revision because the operation asked for it.  A heartbeat changes none of
the columns concerned.  The one thing that can break it comes from outside:
`append_event` called for a job.
-/

namespace VariantOne
namespace WorkFabric

variable {H : Host} {env : Env} {t t' : Tables} {h : History}

/-- A row is what its events say. -/
structure JobSourced (t : Tables) (row : JobRow) : Prop where
  versions : (t.aggregateEvents "job" row.jobId.val).map (·.aggregateVersion) =
    List.range' 1 row.revision
  last : ∃ event, (t.aggregateEvents "job" row.jobId.val).getLast? = some event ∧
    Dict.get? event.payload "status" = some (.str row.status.text) ∧
    row.eventCursor = event.sequence

/-- Every job is what its events say, and there are events of jobs only. -/
structure JobsSourced (t : Tables) : Prop where
  row : ∀ j row, t.job? j = some row → JobSourced t row
  none : ∀ j, t.job? j = none → t.aggregateEvents "job" j = []

/-- The last of the versions `1, …, n` is `n`. -/
theorem foldr_max_range' (n : Nat) : (List.range' 1 n).foldr max 0 = n := by
  induction n with
  | zero => rfl
  | succ n ih =>
      rw [List.range'_concat, List.foldr_append]
      have hmax : ∀ (l : List Nat) (m : Nat), l.foldr max m = max (l.foldr max 0) m := by
        intro l m
        induction l with
        | nil => simp
        | cons x l ihl => rw [List.foldr_cons, List.foldr_cons, ihl, max_assoc]
      rw [hmax, ih]
      simp only [List.foldr_cons, List.foldr_nil]
      omega

theorem JobSourced.currentVersion {row : JobRow} (h : JobSourced t row) :
    t.currentVersion "job" row.jobId.val = row.revision := by
  rw [Tables.currentVersion, h.versions, foldr_max_range']

/-- The events of an aggregate after one more event. -/
theorem aggregateEvents_append {event : WorkEvent} {kind aggregate : String}
    (hevents : t'.events.rows = t.events.rows ++ [event]) :
    t'.aggregateEvents kind aggregate = t.aggregateEvents kind aggregate ++
      (if event.aggregateKind.val = kind ∧ event.aggregateId.val = aggregate then [event]
        else []) := by
  unfold Tables.aggregateEvents
  rw [hevents, List.filter_append]
  congr 1
  by_cases hevent : event.aggregateKind.val = kind ∧ event.aggregateId.val = aggregate
  · rw [if_pos hevent, List.filter_cons_of_pos (by simp [hevent.1, hevent.2]), List.filter_nil]
  · rw [if_neg hevent, List.filter_cons_of_neg (by simpa using hevent), List.filter_nil]

theorem aggregateEvents_of_events {kind aggregate : String} (hevents : t'.events = t.events) :
    t'.aggregateEvents kind aggregate = t.aggregateEvents kind aggregate := by
  unfold Tables.aggregateEvents
  rw [hevents]

/-- A row whose concerned columns and whose events are unchanged is still what
its events say. -/
theorem JobSourced.of_same {row row' : JobRow} (h : JobSourced t row)
    (hevents : t'.aggregateEvents "job" row.jobId.val = t.aggregateEvents "job" row.jobId.val)
    (hid : row'.jobId = row.jobId) (hrevision : row'.revision = row.revision)
    (hstatus : row'.status = row.status) (hcursor : row'.eventCursor = row.eventCursor) :
    JobSourced t' row' := by
  refine ⟨?_, ?_⟩
  · rw [hid, hevents, hrevision, h.versions]
  · rw [hid, hevents, hstatus, hcursor]
    exact h.last

/-- **The next event of a job.**  A row published with its next version is what
its events say. -/
theorem jobSourced_published {row : JobRow} {event : WorkEvent} {n : Nat}
    (hversions : (t.aggregateEvents "job" row.jobId.val).map (·.aggregateVersion) =
      List.range' 1 n)
    (hevents : t'.events.rows = t.events.rows ++ [event]) (hof : EventOfJob row event)
    (hnext : event.aggregateVersion = n + 1) : JobSourced t' (cursorChange event.sequence row) := by
  have hlist : t'.aggregateEvents "job" row.jobId.val =
      t.aggregateEvents "job" row.jobId.val ++ [event] := by
    rw [aggregateEvents_append hevents, if_pos ⟨hof.kind, by rw [hof.aggregate]⟩]
  have hrevision : row.revision = n + 1 := hof.version.symm.trans hnext
  refine ⟨?_, event, ?_, hof.status, rfl⟩
  · change (t'.aggregateEvents "job" row.jobId.val).map (·.aggregateVersion) =
      List.range' 1 row.revision
    rw [hlist, List.map_append, hversions, hrevision, List.range'_concat, List.map_singleton,
      hnext]
    simp [Nat.add_comm]
  · change (t'.aggregateEvents "job" row.jobId.val).getLast? = some event
    rw [hlist, List.getLast?_concat]

/-- The events of another job. -/
theorem aggregateEvents_other {row : JobRow} {event : WorkEvent} {j : String}
    (hevents : t'.events.rows = t.events.rows ++ [event]) (hof : EventOfJob row event)
    (hj : row.jobId.val ≠ j) : t'.aggregateEvents "job" j = t.aggregateEvents "job" j := by
  rw [aggregateEvents_append hevents, if_neg, List.append_nil]
  rintro ⟨-, haggregate⟩
  rw [hof.aggregate] at haggregate
  exact hj haggregate

/-- Publishing a row leaves the other jobs what their events say. -/
theorem JobsSourced.publish {row : JobRow} {event : WorkEvent} (h : JobsSourced t)
    (hevents : t'.events.rows = t.events.rows ++ [event]) (hof : EventOfJob row event)
    (hjobs : ∀ j, t'.job? j =
      if row.jobId.val = j then some (cursorChange event.sequence row) else t.job? j)
    (hrow : JobSourced t' (cursorChange event.sequence row)) : JobsSourced t' := by
  refine ⟨fun j row' hrow' => ?_, fun j hnone => ?_⟩
  · rw [hjobs] at hrow'
    split at hrow'
    · rw [← Option.some.inj hrow']
      exact hrow
    · rename_i hj
      have hid : row'.jobId.val = j := jobId_of_job? hrow'
      exact (h.row j row' hrow').of_same (aggregateEvents_other hevents hof (hid ▸ hj)) rfl rfl
        rfl rfl
  · rw [hjobs] at hnone
    split at hnone
    · exact absurd hnone (by simp)
    · rename_i hj
      rw [aggregateEvents_other hevents hof hj]
      exact h.none j hnone

/-- **A commit keeps every job what its events say.** -/
theorem JobsSourced.commit {row row' : JobRow} {event : WorkEvent} (h : JobsSourced t)
    (hcommit : JobCommit t t' row row' event) : JobsSourced t' := by
  have hid : row'.jobId = row.jobId := hcommit.changed.sameId
  have hsourced := h.row _ row hcommit.changed.found
  have hnext : event.aggregateVersion = row.revision + 1 := by
    rw [hcommit.current, hsourced.currentVersion]
  refine h.publish hcommit.logged.events hcommit.announced (fun j => ?_) ?_
  · rw [hcommit.changed.job?, hid]
  · exact jobSourced_published (by rw [hid]; exact hsourced.versions) hcommit.logged.events
      hcommit.announced hnext

/-- So does a creation: a new job has no events yet. -/
theorem JobsSourced.create {row : JobRow} {event : WorkEvent} (h : JobsSourced t)
    (hcreated : JobCreated t t' row event) : JobsSourced t' := by
  have hempty := h.none _ hcreated.fresh
  rcases hcreated.log with ⟨-, hmem, hkind, haggregate⟩ | ⟨hlog, hof, hcurrent⟩
  · -- the key would have to name an event of a job that does not exist
    have hevent : event ∈ t.aggregateEvents "job" row.jobId.val :=
      List.mem_filter.mpr ⟨hmem, by simp [hkind, haggregate]⟩
    rw [hempty] at hevent
    exact absurd hevent (by simp)
  · have hnext : event.aggregateVersion = 0 + 1 := by
      rw [hcurrent, Tables.currentVersion, hempty]
      rfl
    exact h.publish hlog.events hof hcreated.job?
      (jobSourced_published (n := 0) (by rw [hempty]; rfl) hlog.events hof hnext)

/-- What leaves the jobs and the log alone. -/
theorem JobsSourced.of_same (h : JobsSourced t) (hevents : t'.events = t.events)
    (hjobs : t'.jobs = t.jobs) : JobsSourced t' := by
  have hjob : ∀ j, t'.job? j = t.job? j := fun j => by
    unfold Tables.job?
    rw [hjobs]
  refine ⟨fun j row hrow => ?_, fun j hnone => ?_⟩
  · rw [hjob] at hrow
    exact (h.row j row hrow).of_same (aggregateEvents_of_events hevents) rfl rfl rfl rfl
  · rw [aggregateEvents_of_events hevents]
    exact h.none j (by rw [← hjob]; exact hnone)

theorem JobsSourced.beat {row : JobRow} {now expires : ℚ} {progress : List (String × Json)}
    (h : JobsSourced t) (hchanged : JobChanged t t' row (heartbeatChange now expires progress row))
    (honly : OnlyJobs t t') : JobsSourced t' := by
  refine ⟨fun j row' hrow' => ?_, fun j hnone => ?_⟩
  · rw [hchanged.job?] at hrow'
    split at hrow'
    · rw [← Option.some.inj hrow']
      exact (h.row _ row hchanged.found).of_same (aggregateEvents_of_events honly.events) rfl rfl
        rfl rfl
    · exact (h.row j row' hrow').of_same (aggregateEvents_of_events honly.events) rfl rfl rfl rfl
  · rw [hchanged.job?] at hnone
    split at hnone
    · exact absurd hnone (by simp)
    · rw [aggregateEvents_of_events honly.events]
      exact h.none j hnone

/-- An event of something that is no job. -/
theorem JobsSourced.append {event : WorkEvent} (h : JobsSourced t) (happ : Appended t t' event)
    (hkind : event.aggregateKind.val ≠ "job") : JobsSourced t' := by
  have hevents : ∀ j, t'.aggregateEvents "job" j = t.aggregateEvents "job" j := fun j => by
    rw [aggregateEvents_append happ.events, if_neg fun hc => hkind hc.1, List.append_nil]
  have hjob : ∀ j, t'.job? j = t.job? j := fun j => by
    unfold Tables.job?
    rw [happ.jobs]
  refine ⟨fun j row hrow => ?_, fun j hnone => ?_⟩
  · rw [hjob] at hrow
    exact (h.row j row hrow).of_same (hevents _) rfl rfl rfl rfl
  · rw [hevents]
    exact h.none j (by rw [← hjob]; exact hnone)

/-- `append_event` is not called for a job. -/
def NoJobEvents (_ : History) (_ : Tables) (call : Call) : Prop :=
  match call.op with
  | .appendEvent a => strip a.aggregateKind ≠ "job"
  | _ => True

/-- **Every call keeps every job what its events say**, unless it appends an event
to a job. -/
theorem JobsSourced.effect {call : Call} (h : JobsSourced t) {past : History}
    (hC : NoJobEvents past t call) (heffect : Effect H call.env t t' call.op) :
    JobsSourced t' := by
  obtain ⟨env, op⟩ := call
  cases heffect with
  | nothing same => exact same ▸ h
  | append clean _ appended of =>
      refine h.append appended ?_
      rw [of.kind, val_of_text (cleanEvent_eq_ok clean).1]
      exact hC
  | create creation => exact h.create creation.toJobCreated
  | commit _ committed => exact h.commit committed
  | beat changed only => exact h.beat changed only
  | recover recovered =>
      exact recovered.preserves (fun _ _ _ _ _ _ commit hu => hu.commit commit) h
  | outbox mapped => exact h.of_same mapped.events mapped.jobs
  | project only => exact h.of_same only.events only.jobs

theorem jobsSourced_of_run (hrun : (repository H).RunWhere NoJobEvents h t) : JobsSourced t :=
  hrun.invariant (I := fun _ t => JobsSourced t)
    ⟨fun _ _ hrow => absurd hrow (by simp [repository, Tables.initial, Tables.job?]),
      fun _ _ => rfl⟩
    fun _ _ _ _ _ _ hi hC hstep => hi.effect hC (effect_of_step hstep)

/-- **Event sourcing.**  In every reachable state the events of a job carry
exactly the versions `1, …, revision`, the last of them names the job's state and
is where its cursor points, every event has exactly one outbox row carrying its
sequence, and a call that raises leaves all of this as it was. -/
theorem jobs_event_sourced (hrun : (repository H).RunWhere NoJobEvents h t) :
    (∀ j row, t.job? j = some row →
      (t.aggregateEvents "job" j).map (·.aggregateVersion) = List.range' 1 row.revision ∧
      ∃ event, (t.aggregateEvents "job" j).getLast? = some event ∧
        Dict.get? event.payload "status" = some (.str row.status.text) ∧
        row.eventCursor = event.sequence) ∧
    (∀ event ∈ t.events.rows, ∃ item,
      (t.outbox.rows.filter fun o => o.eventId = event.eventId) = [item] ∧
        item.eventSequence = event.sequence) ∧
    ∀ call e t', (repository H).step call t = (.error e, t') → t' = t := by
  refine ⟨fun j row hrow => ?_, fun event he => ?_, fun call e t' hstep => step_error hstep⟩
  · have hsourced := (jobsSourced_of_run hrun).row j row hrow
    have hid : row.jobId.val = j := jobId_of_job? hrow
    rw [← hid]
    exact ⟨hsourced.versions, hsourced.last⟩
  · exact (logAligned_of_run hrun.run).item he

/-- A job that was created and leased has two events. -/
theorem jobs_event_sourced_leased :
    ∃ row, (afterCalls leasedToA).2.job? "j" = some row ∧ row.status = .leased ∧
      ((afterCalls leasedToA).2.aggregateEvents "job" "j").map (·.aggregateVersion) = [1, 2] := by
  have hrow : ((afterCalls leasedToA).2.job? "j").map (fun row => (row.status, row.revision)) =
      some (.leased, 2) := by
    decide +kernel
  obtain ⟨row, hrow, hcolumns⟩ := Option.map_eq_some_iff.mp hrow
  obtain ⟨hstatus, hrevision⟩ := Prod.mk.inj hcolumns
  have hsourced := ((jobs_event_sourced (runWhere_afterCalls (C := NoJobEvents) leasedToA
    (by simp [leasedToA, callAt, NoJobEvents]))).1 "j" row hrow).1
  rw [hrevision] at hsourced
  exact ⟨row, hrow, hstatus, hsourced⟩

end WorkFabric
end VariantOne
