import VariantOne.WorkFabric.Growth

/-!
# Projections are folds of the log

The events of the log are numbered `1, 2, 3, …` and none changes, so a batch that starts after the cursor
continues where the one before it ended (`batch_continues`).  A reduction stores state and cursor together or
not at all.  In every run, then, what is stored for a projection is the fold of its reducer over the events up
to its cursor: `projection_is_fold`.

A state is stored as JSON and read back before the next batch.  `Survives` says what that takes of a reducer,
for any notion of equal states.
-/

namespace VariantOne
namespace WorkFabric

variable {H : Host} {env : Env} {t t' : Tables} {h : History}

/-! ## 1.  Folds -/

/-- The reducer over some events, in their order. -/
def foldEvents (reducer : Reducer) : List WorkEvent → PyDict → Except Raised PyDict
  | [], state => .ok state
  | event :: events, state =>
      match reduceEvent reducer state event with
      | .error e => .error e
      | .ok reduced => foldEvents reducer events reduced

/-- The events with a sequence up to a cursor, in the order of their sequences. -/
def eventsUpTo (t : Tables) (cursor : Nat) : List WorkEvent :=
  (t.events.rows.filter fun e => e.sequence ≤ cursor).insertionSort fun a b => a.sequence ≤ b.sequence

/-- The states of a reducer survive being stored: one that is read back is the same as the one that was
stored, and the same states are reduced alike and stored alike. -/
structure Survives (H : Host) (reducer : Reducer) (initial : PyDict) (same : PyDict → PyDict → Prop) :
    Prop where
  initial : ∀ document, inlineJson H initial = .ok document → same (entriesToPy document) initial
  reread : ∀ state event reduced document, reduceEvent reducer state event = .ok reduced →
    inlineJson H reduced = .ok document → same (entriesToPy document) reduced
  reduced : ∀ state state' event reduced, same state state' → reduceEvent reducer state event = .ok reduced →
    ∃ reduced', reduceEvent reducer state' event = .ok reduced' ∧ same reduced reduced'
  stored : ∀ state state', same state state' → inlineJson H state = inlineJson H state'

theorem foldEvents_append (reducer : Reducer) (before after : List WorkEvent) {state middle : PyDict}
    (hbefore : foldEvents reducer before state = .ok middle) :
    foldEvents reducer (before ++ after) state = foldEvents reducer after middle := by
  induction before generalizing state with
  | nil =>
      obtain rfl := Except.ok.inj hbefore
      rfl
  | cons event before ih =>
      rw [foldEvents] at hbefore
      rw [List.cons_append, foldEvents]
      cases hreduce : reduceEvent reducer state event with
      | error e =>
          rw [hreduce] at hbefore
          cases hbefore
      | ok reduced =>
          rw [hreduce] at hbefore
          exact ih hbefore

/-- A batch folds its events and moves the cursor past them. -/
theorem reduceBatch_eq_ok {reducer : Reducer} {events : List WorkEvent} {cursor cursor' : Nat}
    {state state' : PyDict} (h : reduceBatch reducer events cursor state = .ok (cursor', state'))
    (hseq : events.map (·.sequence) = List.range' (cursor + 1) events.length) :
    foldEvents reducer events state = .ok state' ∧ cursor' = cursor + events.length := by
  induction events generalizing cursor state with
  | nil =>
      obtain ⟨rfl, rfl⟩ := Prod.mk.inj (Except.ok.inj h)
      exact ⟨rfl, rfl⟩
  | cons event events ih =>
      rw [reduceBatch] at h
      rw [foldEvents]
      rw [List.map_cons, List.length_cons, List.range'_succ] at hseq
      obtain ⟨hfirst, hrest⟩ := List.cons.inj hseq
      cases hreduce : reduceEvent reducer state event with
      | error e =>
          rw [hreduce] at h
          cases h
      | ok reduced =>
          rw [hreduce, hfirst] at h
          obtain ⟨hfold, hcursor⟩ := ih h hrest
          exact ⟨hfold, by rw [hcursor, List.length_cons]; omega⟩

/-- Folds from the same state end in the same state. -/
theorem Survives.fold {reducer : Reducer} {initial : PyDict} {same : PyDict → PyDict → Prop}
    (hs : Survives H reducer initial same) {events : List WorkEvent} {state state' reduced : PyDict}
    (hsame : same state state') (h : foldEvents reducer events state = .ok reduced) :
    ∃ reduced', foldEvents reducer events state' = .ok reduced' ∧ same reduced reduced' := by
  induction events generalizing state state' with
  | nil =>
      obtain rfl := Except.ok.inj h
      exact ⟨state', rfl, hsame⟩
  | cons event events ih =>
      rw [foldEvents] at h
      rw [foldEvents]
      cases hreduce : reduceEvent reducer state event with
      | error e =>
          rw [hreduce] at h
          cases h
      | ok next =>
          rw [hreduce] at h
          obtain ⟨next', hreduce', hnext⟩ := hs.reduced _ _ _ _ hsame hreduce
          rw [hreduce']
          exact ih hnext h

/-- What a fold ends in is the state it started from or one that the reducer made. -/
theorem Survives.reread_fold {reducer : Reducer} {initial : PyDict} {same : PyDict → PyDict → Prop}
    (hs : Survives H reducer initial same) {events : List WorkEvent} {state : PyDict}
    {document : List (String × Json)} (h : foldEvents reducer events initial = .ok state)
    (hdoc : inlineJson H state = .ok document) : same (entriesToPy document) state := by
  have hfrom : ∀ (events : List WorkEvent) (start : PyDict), foldEvents reducer events start = .ok state →
      (∀ document, inlineJson H start = .ok document → same (entriesToPy document) start) →
        same (entriesToPy document) state := by
    intro events
    induction events with
    | nil =>
        intro start hfold hstart
        obtain rfl := Except.ok.inj hfold
        exact hstart _ hdoc
    | cons event events ih =>
        intro start hfold _
        rw [foldEvents] at hfold
        cases hreduce : reduceEvent reducer start event with
        | error e =>
            rw [hreduce] at hfold
            cases hfold
        | ok reduced =>
            rw [hreduce] at hfold
            exact ih reduced hfold fun document hstored => hs.reread _ _ _ _ hreduce hstored
  exact hfrom events initial h hs.initial

/-! ## 2.  Batches of the log -/

/-- The rows of a numbered list before and after a number. -/
theorem filter_numbered {rows : List WorkEvent} {first n : Nat}
    (h : rows.map (·.sequence) = List.range' first n) (c : Nat) :
    rows.filter (fun e => e.sequence < first + c) = rows.take c ∧
      rows.filter (fun e => first + c ≤ e.sequence) = rows.drop c := by
  induction rows generalizing first n c with
  | nil => simp
  | cons e rows ih =>
      cases n with
      | zero => cases h
      | succ n =>
          rw [List.map_cons, List.range'_succ] at h
          obtain ⟨hfirst, hrest⟩ := List.cons.inj h
          have hle : ∀ x ∈ rows, first + 1 ≤ x.sequence := fun x hx =>
            (List.mem_range'_1.mp (hrest ▸ List.mem_map_of_mem (f := WorkEvent.sequence) hx)).1
          cases c with
          | zero =>
              constructor
              · rw [List.take_zero, List.filter_eq_nil_iff]
                intro x hx
                rcases List.mem_cons.mp hx with rfl | hx
                · simp [hfirst]
                · have hx := hle x hx
                  simp only [decide_eq_true_eq]
                  omega
              · rw [List.drop_zero, List.filter_eq_self]
                intro x hx
                rcases List.mem_cons.mp hx with rfl | hx
                · simp [hfirst]
                · have hx := hle x hx
                  simp only [decide_eq_true_eq]
                  omega
          | succ c =>
              obtain ⟨hbefore, hafter⟩ := ih hrest c
              rw [Nat.add_right_comm] at hbefore hafter
              constructor
              · rw [List.take_succ_cons, List.filter_cons_of_pos (by simp [hfirst]), ← hbefore]
                rfl
              · rw [List.drop_succ_cons, List.filter_cons_of_neg (by simp [hfirst]), ← hafter]
                rfl

theorem LogAligned.insertionSort {rows : List WorkEvent} (h : LogAligned t)
    (hsub : rows.Sublist t.events.rows) :
    rows.insertionSort (fun a b => a.sequence ≤ b.sequence) = rows :=
  List.Pairwise.insertionSort_eq ((h.increasing.sublist hsub).imp fun hlt => Nat.le_of_lt hlt)

theorem LogAligned.eventsUpTo_eq (h : LogAligned t) (cursor : Nat) :
    eventsUpTo t cursor = t.events.rows.take cursor := by
  rw [eventsUpTo, h.insertionSort List.filter_sublist, ← (filter_numbered h.sequences cursor).1]
  refine List.filter_congr fun e _ => ?_
  rw [decide_eq_decide, Nat.add_comm, Nat.lt_succ_iff]

theorem LogAligned.eventsAfter_eq (h : LogAligned t) (cursor take : Nat) :
    eventsAfter t cursor take = (t.events.rows.drop cursor).take take := by
  rw [eventsAfter, h.insertionSort List.filter_sublist, ← (filter_numbered h.sequences cursor).2]
  refine congrArg (List.take take) (List.filter_congr fun e _ => ?_)
  rw [decide_eq_decide, Nat.add_comm, Nat.succ_le_iff]

/-- **A batch continues** where the events up to its cursor end. -/
theorem LogAligned.batch_continues (h : LogAligned t) {cursor : Nat} (hcursor : cursor ≤ t.eventSequence)
    (take : Nat) :
    (eventsAfter t cursor take).map (·.sequence) =
        List.range' (cursor + 1) (eventsAfter t cursor take).length ∧
      cursor + (eventsAfter t cursor take).length ≤ t.eventSequence ∧
      eventsUpTo t (cursor + (eventsAfter t cursor take).length) =
        eventsUpTo t cursor ++ eventsAfter t cursor take := by
  have hlength : t.events.rows.length = t.eventSequence := by
    have hlen := congrArg List.length h.sequences
    rwa [List.length_map, List.length_range'] at hlen
  rw [h.eventsAfter_eq, h.eventsUpTo_eq, h.eventsUpTo_eq, List.length_take, List.length_drop, hlength]
  refine ⟨?_, by omega, ?_⟩
  · rw [List.map_take, List.map_drop, h.sequences, List.drop_range', Nat.mul_one, Nat.add_comm 1 cursor]
    rcases Nat.le_total (t.eventSequence - cursor) take with hle | hle
    · rw [List.take_range'_of_length_le hle, Nat.min_eq_right hle]
    · rw [List.take_range'_of_length_ge hle, Nat.min_eq_left hle]
  · rw [List.take_add]
    refine congrArg (t.events.rows.take cursor ++ ·) (List.take_eq_take_iff.mpr ?_)
    rw [List.length_drop, hlength]
    omega

/-! ## 3.  What the other calls leave -/

/-- A call other than a reduction leaves the projections. -/
theorem projections_of_perform {op : Op} {outcome : Outcome}
    (hop : ∀ name reducer initial batch, op ≠ .reduceProjection name reducer initial batch)
    (h : (perform H env op).run t = .ok (outcome, t')) : t'.projections = t.projections := by
  cases hre : op.rewrites with
  | false => exact (grows_of_perform hre h).projections
  | true =>
      cases op with
      | reduceProjection name reducer initial batch => exact absurd rfl (hop name reducer initial batch)
      | claimOutbox consumer limit ttl now =>
          obtain ⟨items, hrun, -⟩ := Txn.run_map_eq_ok.mp h
          obtain ⟨owner, -, hclaimed⟩ := claimOutbox_eq_ok hrun
          exact hclaimed.onlyOutbox.projections
      | acknowledgeOutbox outboxId consumer epoch now =>
          obtain ⟨u, hrun, -⟩ := Txn.run_map_eq_ok.mp h
          obtain ⟨row, -, -, hmapped⟩ := acknowledgeOutbox_eq_ok hrun
          exact hmapped.projections
      | rejectOutbox outboxId consumer epoch error delay maxAttempts now =>
          obtain ⟨status, hrun, -⟩ := Txn.run_map_eq_ok.mp h
          obtain ⟨row, clean, -, -, hmapped, -⟩ := rejectOutbox_eq_ok hrun
          exact hmapped.projections
      | recoverExpiredOutbox now =>
          obtain ⟨n, hrun, -⟩ := Txn.run_map_eq_ok.mp h
          exact (recoverExpiredOutbox_eq_ok hrun).projections
      | _ => cases hre

theorem LogAligned.length (h : LogAligned t) : t.events.rows.length = t.eventSequence := by
  have hlen := congrArg List.length h.sequences
  rwa [List.length_map, List.length_range'] at hlen

/-- The events up to a cursor stay what they are. -/
theorem eventsUpTo_grown (h : LogAligned t) (h' : LogAligned t') {new : List WorkEvent}
    (hnew : t'.events.rows = t.events.rows ++ new) {cursor : Nat} (hcursor : cursor ≤ t.eventSequence) :
    cursor ≤ t'.eventSequence ∧ eventsUpTo t' cursor = eventsUpTo t cursor := by
  rw [← h.length] at hcursor
  refine ⟨?_, ?_⟩
  · rw [← h'.length, hnew, List.length_append]
    omega
  · rw [h.eventsUpTo_eq, h'.eventsUpTo_eq, hnew, List.take_append_of_le_length hcursor]

/-! ## 4.  The projection of a run -/

/-- The reductions of a projection use one reducer and start from one mapping. -/
def UsesReducer (name : String) (reducer : Reducer) (initial : PyDict) (_ : History) (_ : Tables)
    (call : Call) : Prop :=
  ∀ rawName r i batch clean, call.op = .reduceProjection rawName r i batch →
    text rawName "projection name" true 240 = .ok clean → clean.val = name →
      r = reducer ∧ i.getD [] = initial

/-- What is stored is the fold over the events up to the cursor. -/
structure Folded (H : Host) (reducer : Reducer) (initial : PyDict) (same : PyDict → PyDict → Prop)
    (t : Tables) (row : ProjectionRow) : Prop where
  bound : row.lastSequence ≤ t.eventSequence
  fold : ∃ state, foldEvents reducer (eventsUpTo t row.lastSequence) initial = .ok state ∧
    inlineJson H state = .ok row.state ∧ same (entriesToPy row.state) state

theorem Folded.grown {reducer : Reducer} {initial : PyDict} {same : PyDict → PyDict → Prop}
    {row : ProjectionRow} (hrow : Folded H reducer initial same t row) (h : LogAligned t) (h' : LogAligned t')
    {new : List WorkEvent} (hnew : t'.events.rows = t.events.rows ++ new) :
    Folded H reducer initial same t' row := by
  obtain ⟨hbound, hevents⟩ := eventsUpTo_grown h h' hnew hrow.bound
  exact ⟨hbound, by rw [hevents]; exact hrow.fold⟩

/-- One batch of a projection. -/
theorem folded_batch {reducer : Reducer} {initial : PyDict} {same : PyDict → PyDict → Prop}
    (hs : Survives H reducer initial same) (h : LogAligned t) {stored : Option ProjectionRow}
    (hstored : ∀ row, stored = some row → Folded H reducer initial same t row) {take cursor : Nat}
    {state : PyDict} {clean : Text true 240} {document : List (String × Json)} {now : ℚ}
    (hbatch : reduceBatch reducer (eventsAfter t ((stored.map (·.lastSequence)).getD 0) take)
      ((stored.map (·.lastSequence)).getD 0)
      ((stored.map fun row => entriesToPy row.state).getD initial) = .ok (cursor, state))
    (hdoc : inlineJson H state = .ok document) :
    Folded H reducer initial same t ⟨clean, cursor, document, now⟩ := by
  cases stored with
  | none =>
      obtain ⟨hseq, hbound, hupTo⟩ := h.batch_continues (Nat.zero_le _) take
      obtain ⟨hfold, rfl⟩ := reduceBatch_eq_ok hbatch hseq
      have hall : foldEvents reducer (eventsUpTo t (0 + (eventsAfter t 0 take).length)) initial =
          .ok state := by
        rw [hupTo, h.eventsUpTo_eq, List.take_zero, List.nil_append]
        exact hfold
      exact ⟨hbound, state, hall, hdoc, hs.reread_fold hall hdoc⟩
  | some row =>
      obtain ⟨hrow, before, hbefore, -, hsame⟩ := hstored row rfl
      obtain ⟨hseq, hbound, hupTo⟩ := h.batch_continues hrow take
      obtain ⟨hfold, rfl⟩ := reduceBatch_eq_ok hbatch hseq
      obtain ⟨state', hfold', hstate⟩ := hs.fold hsame hfold
      have hall : foldEvents reducer
          (eventsUpTo t (row.lastSequence + (eventsAfter t row.lastSequence take).length)) initial =
            .ok state' := by
        rw [hupTo, foldEvents_append reducer _ _ hbefore]
        exact hfold'
      have hdoc' : inlineJson H state' = .ok document := (hs.stored _ _ hstate).symm.trans hdoc
      exact ⟨hbound, state', hall, hdoc', hs.reread_fold hall hdoc'⟩

/-- **A projection is the fold of its reducer** over the events up to its cursor, in every run. -/
theorem projection_is_fold {name : String} {reducer : Reducer} {initial : PyDict}
    {same : PyDict → PyDict → Prop} (hs : Survives H reducer initial same)
    (hrun : (repository H).RunWhere (UsesReducer name reducer initial) h t) {row : ProjectionRow}
    (hrow : t.projections.find? name = some row) : Folded H reducer initial same t row := by
  have hinv := hrun.invariant (I := fun _ t => LogAligned t ∧
    ∀ row, t.projections.find? name = some row → Folded H reducer initial same t row) ⟨.initial, ?_⟩ ?_
  · exact hinv.2 row hrow
  · intro row hrow
    cases hrow
  · rintro h t call outcome t' - ⟨haligned, hfolded⟩ huses hstep
    have heffect := effect_of_step hstep
    have haligned' := haligned.effect heffect
    refine ⟨haligned', fun row hrow => ?_⟩
    obtain ⟨new, hnew⟩ := heffect.events_grow
    cases outcome with
    | error e =>
        rw [step_error hstep] at hrow ⊢
        exact hfolded row hrow
    | ok result =>
        have hperform := step_ok hstep
        by_cases hop : ∃ rawName r i batch, call.op = .reduceProjection rawName r i batch
        · obtain ⟨rawName, r, i, batch, hop⟩ := hop
          rw [hop] at hperform
          obtain ⟨snapshot, hreduce, -⟩ := Txn.run_map_eq_ok.mp hperform
          obtain ⟨clean, cursor, state, document, hclean, hbatch, hdoc, -, hfind, -⟩ :=
            reduceProjection_eq_ok hreduce
          rw [hfind] at hrow
          by_cases hname : clean.val = name
          · obtain ⟨rfl, rfl⟩ := huses rawName r i batch clean hop hclean hname
            rw [if_pos hname] at hrow
            rw [← Option.some.inj hrow]
            subst hname
            exact (folded_batch hs haligned hfolded hbatch hdoc).grown haligned haligned' hnew
          · rw [if_neg hname] at hrow
            exact (hfolded row hrow).grown haligned haligned' hnew
        · rw [not_exists] at hop
          rw [projections_of_perform (fun rawName r i batch heq => hop rawName ⟨r, i, batch, heq⟩)
            hperform] at hrow
          exact (hfolded row hrow).grown haligned haligned' hnew

/-- The reducer that counts events. -/
def countEvents : Reducer := fun state _ =>
  match Dict.get? state "count" with
  | some (.int n) => .ok (.dict [("count", .int (n + 1))])
  | _ => .ok (.dict [("count", .int 1)])

theorem reread_count {n : Int} {document : List (String × Json)}
    (h : inlineJson H [("count", .int n)] = .ok document) : entriesToPy document = [("count", .int n)] := by
  have hstrict : strictEntries [("count", .int n)] "$" = .ok [("count", .int n)] := by
    rw [strictEntries, strictEntries]
    rfl
  unfold inlineJson at h
  rw [hstrict] at h
  dsimp only at h
  split at h
  · rw [← Except.ok.inj h]
    rfl
  · cases h

theorem countEvents_eq_ok {state reduced : PyDict} {event : WorkEvent}
    (h : reduceEvent countEvents state event = .ok reduced) : ∃ n, reduced = [("count", .int n)] := by
  unfold reduceEvent countEvents at h
  split at h
  · cases h
  · next hcases =>
    split at hcases <;> cases hcases <;> cases h
    · exact ⟨_, rfl⟩
    · exact ⟨1, rfl⟩
  · cases h

theorem survives_countEvents : Survives H countEvents [] Eq where
  initial document h := by
    unfold inlineJson at h
    rw [strictEntries] at h
    dsimp only at h
    split at h
    · rw [← Except.ok.inj h]
      rfl
    · cases h
  reread state event reduced document hreduce hdoc := by
    obtain ⟨n, rfl⟩ := countEvents_eq_ok hreduce
    exact reread_count hdoc
  reduced state state' event reduced hsame hreduce := ⟨reduced, hsame ▸ hreduce, rfl⟩
  stored state state' hsame := by rw [hsame]

/-- A job is created and leased, and the projection `p` counts the events one at a time. -/
def countedTwice : List (ℚ × Op) :=
  [(0, .createJob { kind := "k", ownerKind := "chat", ownerId := "o", jobId := "j", maxAttempts := 2 }),
    (0, .reduceProjection "p" countEvents none 1), (0, .leaseNextJob "A" [] [] 9 none),
    (0, .reduceProjection "p" countEvents none 10)]

theorem projection_is_fold_counted :
    ∃ row, (afterCalls countedTwice).2.projections.find? "p" = some row ∧ row.lastSequence = 2 ∧
      Folded Host.plain countEvents [] Eq (afterCalls countedTwice).2 row := by
  have hsequence : ((afterCalls countedTwice).2.projections.find? "p").map (·.lastSequence) = some 2 := by
    decide +kernel
  obtain ⟨row, hrow, htwo⟩ := Option.map_eq_some_iff.mp hsequence
  refine ⟨row, hrow, htwo, projection_is_fold survives_countEvents
    (runWhere_afterCalls countedTwice fun c hc h t rawName r i batch clean hop _ _ => ?_) hrow⟩
  simp only [countedTwice, List.mem_cons, List.not_mem_nil, or_false] at hc
  rcases hc with rfl | rfl | rfl | rfl
  · cases hop
  · cases hop
    exact ⟨rfl, rfl⟩
  · cases hop
  · cases hop
    exact ⟨rfl, rfl⟩

end WorkFabric
end VariantOne
