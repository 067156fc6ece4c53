import VariantOne.AgentEngine.SnapshotEffects

/-!
# Chains of boundaries

The boundaries of a live thread are a linked log from sequence 1 on, which its head names;
a deleted thread has none (`Chained`).  An operation extends a log at its end, starts one, or
drops one, so this holds in every run.

The fence reads the head: a commit that succeeded has moved the head past what it expected,
and heads only grow, so no other commit can expect the same.

`snapshot_chains` puts the two together for every run.  `Linked` of the library is the shape of a chain;
`Extended` and `Deleted` are the only steps it has to be checked against.
-/

namespace VariantOne
namespace AgentEngine

variable {C : SnapshotCodec} {db db' : SnapshotDb}

/-! ## 1.  The invariant -/

/-- The boundaries of every thread are what its row says. -/
structure Chained (db : SnapshotDb) : Prop where
  live : ∀ k t, db.threads.find? k = some t → t.tombstonedAt = none →
    db.rowsOf k ≠ [] ∧ t.headSeq = some (db.rowsOf k).length ∧
      t.headSnapshotId = some (newest "" (db.rowsOf k)) ∧ BoundaryLog 1 "" (db.rowsOf k)
  dead : ∀ k t, db.threads.find? k = some t → t.tombstonedAt ≠ none → db.rowsOf k = []
  unknown : ∀ k, db.threads.find? k = none → db.rowsOf k = []

theorem chained_empty : Chained SnapshotDb.empty :=
  ⟨fun _ _ h => absurd h (by simp [SnapshotDb.empty]),
    fun _ _ h => absurd h (by simp [SnapshotDb.empty]), fun _ _ => rfl⟩

/-- Boundaries depend on the tables only. -/
theorem Chained.frame (h : Chained db) (hthreads : db'.threads = db.threads)
    (hsnapshots : db'.snapshots = db.snapshots) : Chained db' := by
  have hrows : ∀ k, db'.rowsOf k = db.rowsOf k := fun k => by
    unfold SnapshotDb.rowsOf
    rw [hsnapshots]
  refine ⟨fun k t hk htomb => ?_, fun k t hk htomb => ?_, fun k hk => ?_⟩
  · rw [hrows]
    exact h.live k t (by rw [← hthreads, hk]) htomb
  · rw [hrows]
    exact h.dead k t (by rw [← hthreads, hk]) htomb
  · rw [hrows]
    exact h.unknown k (by rw [← hthreads, hk])

/-- The order of a log is the order of its sequences. -/
theorem Chained.boundaries_eq (h : Chained db) (k : String) : db.boundaries k = db.rowsOf k := by
  have hsorted : (db.rowsOf k).Pairwise fun r r' => r.seq ≤ r'.seq := by
    cases hfind : db.threads.find? k with
    | none =>
        rw [h.unknown k hfind]
        exact List.Pairwise.nil
    | some t =>
        by_cases htomb : t.tombstonedAt = none
        · exact (h.live k t hfind htomb).2.2.2.increasing
        · rw [h.dead k t hfind htomb]
          exact List.Pairwise.nil
  exact hsorted.insertionSort_eq

/-- The log of the thread that an operation extends, as its row says. -/
theorem Chained.owner_log (h : Chained db) {owner after : ThreadRow} {new : List SnapshotRow}
    (hext : Extended db db' owner after new) :
    owner.count = (db.rowsOf owner.threadId).length ∧
      owner.headId = newest "" (db.rowsOf owner.threadId) ∧
      BoundaryLog 1 "" (db.rowsOf owner.threadId) := by
  rcases hext.opened with ⟨hnone, hseq, hid⟩ | hfind
  · rw [h.unknown _ hnone, ThreadRow.count, ThreadRow.headId, hseq, hid]
    exact ⟨rfl, rfl, trivial⟩
  · obtain ⟨-, hseq, hid, hlog⟩ := h.live _ _ hfind hext.live.1
    rw [ThreadRow.count, ThreadRow.headId, hseq, hid]
    exact ⟨rfl, rfl, hlog⟩

theorem Chained.extended (h : Chained db) {owner after : ThreadRow} {new : List SnapshotRow}
    (hext : Extended db db' owner after new) (hne : new ≠ []) : Chained db' := by
  have hrows := SnapshotDb.rowsOf_append hext.rows hext.owned
  obtain ⟨hcount, hid, hlog⟩ := h.owner_log hext
  refine ⟨fun k t hk htomb => ?_, fun k t hk htomb => ?_, fun k hk => ?_⟩
  · rw [hext.threads] at hk
    rw [hrows]
    by_cases hkey : k = owner.threadId
    · rw [if_pos hkey] at hk ⊢
      obtain rfl := Option.some.inj hk
      rw [hkey, hext.head.1, hext.head.2, hcount, hid, List.length_append]
      refine ⟨fun hnil => hne (List.append_eq_nil_iff.mp hnil).2, rfl,
        congrArg some (Linked.tip_append _ _ _).symm, ?_⟩
      refine Linked.log_append.mpr ⟨hlog, ?_⟩
      have hnew := hext.log
      rwa [hcount, hid, Nat.add_comm] at hnew
    · rw [if_neg hkey] at hk ⊢
      rw [List.append_nil]
      exact h.live k t hk htomb
  · rw [hext.threads] at hk
    rw [hrows]
    by_cases hkey : k = owner.threadId
    · rw [if_pos hkey] at hk
      obtain rfl := Option.some.inj hk
      exact absurd hext.live.2 htomb
    · rw [if_neg hkey] at hk ⊢
      rw [List.append_nil]
      exact h.dead k t hk htomb
  · rw [hext.threads] at hk
    rw [hrows]
    by_cases hkey : k = owner.threadId
    · rw [if_pos hkey] at hk
      exact absurd hk (by simp)
    · rw [if_neg hkey] at hk ⊢
      rw [List.append_nil]
      exact h.unknown k hk

theorem Deleted.rowsOf {k : String} {old : Option ThreadRow} {now : ℚ}
    (hdel : Deleted db db' k old now) (h : Chained db) (j : String) :
    db'.rowsOf j = if j = k then [] else db.rowsOf j := by
  have hrows := hdel.rows
  unfold SnapshotDb.rowsOf
  cases old with
  | none =>
      rw [hrows]
      by_cases hj : j = k
      · rw [if_pos hj, hj]
        exact h.unknown k hdel.found
      · rw [if_neg hj]
        rfl
  | some t =>
      rw [hrows]
      show (List.filter _ (List.filter _ _)) = _
      rw [List.filter_filter]
      by_cases hj : j = k
      · rw [if_pos hj, List.filter_eq_nil_iff]
        intro r _
        simp [hj]
      · rw [if_neg hj]
        refine List.filter_congr fun r _ => ?_
        by_cases hr : r.threadId = j
        · simp [hr, hj]
        · simp [hr]

theorem Chained.deleted (h : Chained db) {k : String} {old : Option ThreadRow} {now : ℚ}
    (hdel : Deleted db db' k old now) : Chained db' := by
  obtain ⟨t', ht', htomb'⟩ := hdel.tombstone
  refine ⟨fun j t hj htomb => ?_, fun j t hj htomb => ?_, fun j hj => ?_⟩
  · rw [hdel.rowsOf h]
    by_cases hk : j = k
    · subst hk
      rw [ht'] at hj
      obtain rfl := Option.some.inj hj
      rw [htomb'] at htomb
      exact absurd htomb (by simp)
    · rw [if_neg hk]
      exact h.live j t (by rw [← hdel.threads j hk, hj]) htomb
  · rw [hdel.rowsOf h]
    by_cases hk : j = k
    · rw [if_pos hk]
    · rw [if_neg hk]
      exact h.dead j t (by rw [← hdel.threads j hk, hj]) htomb
  · rw [hdel.rowsOf h]
    by_cases hk : j = k
    · rw [if_pos hk]
    · rw [if_neg hk]
      exact h.unknown j (by rw [← hdel.threads j hk, hj])

theorem Chained.initialized (h : Chained db) : Chained db.initIndex := by
  refine h.frame ?_ ?_ <;>
  · unfold SnapshotDb.initIndex
    cases db.index <;> rfl

/-- A copy of a thread copies at least its first boundary. -/
theorem Chained.copySource_pos (h : Chained db) {source : String} {t : ThreadRow} {n : Nat}
    (hsource : copySource db source = .ok (t, n)) : 0 < n := by
  obtain ⟨hfind, htomb, hseq⟩ := copySource_eq_ok hsource
  obtain ⟨hne, hlen, -⟩ := h.live _ _ hfind htomb
  rw [hseq, Option.some.injEq] at hlen
  rw [hlen]
  exact List.length_pos_of_ne_nil hne

/-- One operation keeps the chains. -/
theorem StoreStep.chained {op : SnapshotOp} {r : SnapshotReply} (hstep : StoreStep C db op r db')
    (h : Chained db) : Chained db' := by
  cases hstep with
  | raised => exact h
  | deletedBlank => exact h
  | copiedSelf => exact h
  | initialized => exact h.initialized
  | committed _ _ _ hext => exact h.extended hext (by simp)
  | copied _ hsource _ hlen _ hext =>
      exact h.extended hext (List.ne_nil_of_length_pos (by rw [hlen]; exact h.copySource_pos hsource))
  | copiedThrough hpos _ _ hlen _ _ _ hext =>
      exact h.extended hext (List.ne_nil_of_length_pos (by rw [hlen]; exact hpos.2))
  | deleted _ hdel => exact h.deleted hdel

theorem chained_of_run {h : List (SnapshotOp × SnapshotReply)}
    (hrun : C.snapshotStore.Run h db) : Chained db :=
  Machine.Run.invariant (I := fun _ s => Chained s) chained_empty
    (fun _ _ _ _ _ _ hI hs => (stepStore_eq hs).chained hI) hrun

theorem mem_rowsOf {r : SnapshotRow} {k : String} :
    r ∈ db.rowsOf k ↔ r ∈ db.snapshots.rows ∧ r.threadId = k := by
  unfold SnapshotDb.rowsOf
  rw [List.mem_filter, decide_eq_true_eq]

/-- The thread of a boundary is live. -/
theorem Chained.live_of_row (h : Chained db) {r : SnapshotRow} (hr : r ∈ db.snapshots.rows) :
    ∃ t, db.threads.find? r.threadId = some t ∧ t.tombstonedAt = none := by
  have hmem : r ∈ db.rowsOf r.threadId := mem_rowsOf.mpr ⟨hr, rfl⟩
  cases hfind : db.threads.find? r.threadId with
  | none =>
      rw [h.unknown _ hfind] at hmem
      exact absurd hmem (by simp)
  | some t =>
      refine ⟨t, rfl, ?_⟩
      by_contra htomb
      rw [h.dead _ t hfind htomb] at hmem
      exact absurd hmem (by simp)

/-- A boundary is determined by its thread and its sequence. -/
theorem Chained.eq_of_seq (h : Chained db) {r r' : SnapshotRow} (hr : r ∈ db.snapshots.rows)
    (hr' : r' ∈ db.snapshots.rows) (hthread : r.threadId = r'.threadId) (hseq : r.seq = r'.seq) :
    r = r' := by
  obtain ⟨t, ht, htomb⟩ := h.live_of_row hr
  exact (h.live _ t ht htomb).2.2.2.eq_of_seq (mem_rowsOf.mpr ⟨hr, rfl⟩)
    (mem_rowsOf.mpr ⟨hr', hthread.symm⟩) hseq

theorem liveThread_eq_some_iff {k : String} {t : ThreadRow} :
    db.liveThread k = some t ↔ db.threads.find? k = some t ∧ t.tombstonedAt = none := by
  rw [SnapshotDb.liveThread, Option.filter_eq_some_iff, Option.isNone_iff_eq_none]

/-- A test that only passes at the number of a boundary finds it. -/
theorem Chained.find?_row (h : Chained db) {k : String} {r : SnapshotRow} (hr : r ∈ db.rowsOf k)
    {p : SnapshotRow → Bool} (hp : p r = true) (hseq : ∀ x, p x = true → x.seq = r.seq) :
    (db.rowsOf k).find? p = some r := by
  cases hfound : (db.rowsOf k).find? p with
  | none => exact absurd hp (List.find?_eq_none.mp hfound r hr)
  | some r' =>
      have hr' := mem_rowsOf.mp (List.mem_of_find?_eq_some hfound)
      have hthread := mem_rowsOf.mp hr
      rw [h.eq_of_seq hr'.1 hthread.1 (hr'.2.trans hthread.2.symm)
        (hseq r' (List.find?_some hfound))]

/-- The cursor of a boundary selects it. -/
theorem Chained.select (h : Chained db) {r : SnapshotRow} (hr : r ∈ db.snapshots.rows) :
    db.select ⟨r.threadId, r.seq, r.snapshotId⟩ = some r := by
  refine h.find?_row (mem_rowsOf.mpr ⟨hr, rfl⟩) (decide_eq_true ⟨rfl, rfl⟩) fun x hx => ?_
  exact (of_decide_eq_true hx).1

/-! ## 2.  The history of a store -/

/-- The thread and the expected head of a commit that succeeded. -/
def committedAt : SnapshotOp × SnapshotReply → Option (String × Option Int)
  | (.commit _ _ _ expected _, .committed cursor) => some (cursor.threadId, expected)
  | _ => none

/-- The thread that a successful operation gave boundaries to. -/
def writtenThread : SnapshotOp × SnapshotReply → Option String
  | (.commit .., .committed cursor) => some cursor.threadId
  | (.copyThrough .., .committed cursor) => some cursor.threadId
  | (.copy source target _, .done) => if strip source = strip target then none else some (strip target)
  | _ => none

/-- The thread that a deletion named. -/
def deletedThread : SnapshotOp × SnapshotReply → Option String
  | (.delete thread _, .done) => if strip thread = "" then none else some (strip thread)
  | _ => none

/-- The head of a thread is past what a commit expected, or the thread is deleted. -/
def Spent (db : SnapshotDb) (slot : String × Option Int) : Prop :=
  ∃ t, db.threads.find? slot.1 = some t ∧
    (t.tombstonedAt = none → ∃ n : Nat, t.headSeq = some n ∧ ∀ e, slot.2 = some e → e < n)

/-- The row of a thread is a tombstone. -/
def Tombstoned (db : SnapshotDb) (k : String) : Prop :=
  ∃ t, db.threads.find? k = some t ∧ t.tombstonedAt ≠ none

/-- An extended thread was not deleted. -/
theorem Extended.not_tombstoned {owner after : ThreadRow} {new : List SnapshotRow}
    (hext : Extended db db' owner after new) : ¬ Tombstoned db owner.threadId := by
  rintro ⟨t, ht, htomb⟩
  rcases hext.opened with ⟨hnone, -⟩ | hfind
  · rw [hnone] at ht
    exact absurd ht (by simp)
  · rw [hfind, Option.some.injEq] at ht
    rw [← ht] at htomb
    exact htomb hext.live.1

theorem Extended.tombstoned {owner after : ThreadRow} {new : List SnapshotRow}
    (hext : Extended db db' owner after new) {k : String} (h : Tombstoned db k) : Tombstoned db' k := by
  have hk : k ≠ owner.threadId := by
    rintro rfl
    exact hext.not_tombstoned h
  obtain ⟨t, ht, htomb⟩ := h
  exact ⟨t, by rw [hext.threads, if_neg hk, ht], htomb⟩

theorem Deleted.tombstoned {k j : String} {old : Option ThreadRow} {now : ℚ}
    (hdel : Deleted db db' k old now) (h : Tombstoned db j ∨ j = k) : Tombstoned db' j := by
  by_cases hj : j = k
  · obtain ⟨t, ht, htomb⟩ := hdel.tombstone
    refine ⟨t, by rw [hj, ht], ?_⟩
    rw [htomb]
    simp
  · obtain ⟨t, ht, htomb⟩ := h.resolve_right hj
    exact ⟨t, by rw [hdel.threads j hj, ht], htomb⟩

/-- One operation: a deleted thread stays deleted, what was written to was not deleted, and
what was deleted is. -/
theorem StoreStep.tombstones {op : SnapshotOp} {r : SnapshotReply}
    (hstep : StoreStep C db op r db') (k : String) :
    (Tombstoned db k → Tombstoned db' k ∧ writtenThread (op, r) ≠ some k) ∧
      (deletedThread (op, r) = some k → Tombstoned db' k) := by
  have hextended : ∀ {owner after : ThreadRow} {new : List SnapshotRow},
      Extended db db' owner after new → Tombstoned db k → some owner.threadId ≠ some k := by
    intro owner after new hext ht heq
    rw [← Option.some.inj heq] at ht
    exact hext.not_tombstoned ht
  cases hstep with
  | raised => exact ⟨fun ht => ⟨ht, by cases op <;> simp [writtenThread]⟩, by cases op <;> simp [deletedThread]⟩
  | deletedBlank hblank => exact ⟨fun ht => ⟨ht, by simp [writtenThread]⟩, by simp [deletedThread, hblank]⟩
  | copiedSelf heq => exact ⟨fun ht => ⟨ht, by simp [writtenThread, heq]⟩, by simp [deletedThread]⟩
  | initialized =>
      refine ⟨fun ⟨t, ht, htomb⟩ => ⟨⟨t, ?_, htomb⟩, by simp [writtenThread]⟩, by simp [deletedThread]⟩
      rw [← ht]
      unfold SnapshotDb.initIndex
      cases db.index <;> rfl
  | committed _ hid _ hext =>
      refine ⟨fun ht => ⟨hext.tombstoned ht, ?_⟩, by simp [deletedThread]⟩
      show some _ ≠ some k
      rw [← hid]
      exact hextended hext ht
  | copied hne _ _ _ _ hext =>
      refine ⟨fun ht => ⟨hext.tombstoned ht, ?_⟩, by simp [deletedThread]⟩
      rw [writtenThread, if_neg hne.2]
      exact hextended hext ht
  | copiedThrough _ _ _ _ _ _ _ hext =>
      exact ⟨fun ht => ⟨hext.tombstoned ht, hextended hext ht⟩, by simp [deletedThread]⟩
  | deleted hthread hdel =>
      refine ⟨fun ht => ⟨hdel.tombstoned (.inl ht), by simp [writtenThread]⟩, fun hk => ?_⟩
      rw [deletedThread, if_neg hthread] at hk
      exact hdel.tombstoned (.inr (Option.some.inj hk).symm)

/-! ## 3.  The fence -/

theorem Extended.spent {owner after : ThreadRow} {new : List SnapshotRow}
    (hext : Extended db db' owner after new) {slot : String × Option Int} (h : Spent db slot) :
    Spent db' slot := by
  obtain ⟨t, ht, hhead⟩ := h
  by_cases hk : slot.1 = owner.threadId
  · refine ⟨after, by rw [hext.threads, if_pos hk], fun _ => ⟨_, hext.head.1, fun e he => ?_⟩⟩
    rcases hext.opened with ⟨hnone, -⟩ | hfind
    · rw [hk, hnone] at ht
      exact absurd ht (by simp)
    · rw [hk, hfind, Option.some.injEq] at ht
      subst ht
      obtain ⟨n, hn, hlt⟩ := hhead hext.live.1
      have hcount : owner.count = n := by
        rw [ThreadRow.count, hn]
        rfl
      have hen := hlt e he
      omega
  · exact ⟨t, by rw [hext.threads, if_neg hk, ht], hhead⟩

theorem Deleted.spent {k : String} {old : Option ThreadRow} {now : ℚ}
    (hdel : Deleted db db' k old now) {slot : String × Option Int} (h : Spent db slot) :
    Spent db' slot := by
  by_cases hk : slot.1 = k
  · obtain ⟨t, ht, htomb⟩ := hdel.tombstone
    refine ⟨t, by rw [hk, ht], fun hlive => ?_⟩
    rw [htomb] at hlive
    exact absurd hlive (by simp)
  · obtain ⟨t, ht, hhead⟩ := h
    exact ⟨t, by rw [hdel.threads _ hk, ht], hhead⟩

/-- A commit that succeeded expected a head that was not spent, and has spent it. -/
theorem Extended.spends {owner after : ThreadRow} {new : List SnapshotRow} {expected : Option Int}
    (hext : Extended db db' owner after new) (hne : new ≠ [])
    (hfence : fenced owner.headSeq expected = true) :
    ¬ Spent db (owner.threadId, expected) ∧ Spent db' (owner.threadId, expected) := by
  have hexpected : ∀ e, expected = some e → owner.headSeq.map Int.ofNat = some e := by
    rintro e rfl
    simpa [fenced] using hfence
  constructor
  · rintro ⟨t, ht, hhead⟩
    rcases hext.opened with ⟨hnone, -⟩ | hfind
    · rw [hnone] at ht
      exact absurd ht (by simp)
    · rw [hfind, Option.some.injEq] at ht
      subst ht
      obtain ⟨n, hn, hlt⟩ := hhead hext.live.1
      cases expected with
      | none => simp [fenced, hn] at hfence
      | some e =>
          have he := hexpected e rfl
          rw [hn, Option.map_some, Option.some.injEq, Int.ofNat_eq_natCast] at he
          have hen := hlt e rfl
          omega
  · refine ⟨after, by rw [hext.threads, if_pos rfl], fun _ => ⟨_, hext.head.1, fun e he => ?_⟩⟩
    have hlen : 0 < new.length := List.length_pos_of_ne_nil hne
    have hhead := hexpected e he
    cases hseq : owner.headSeq with
    | none =>
        rw [hseq] at hhead
        exact absurd hhead (by simp)
    | some n =>
        rw [hseq, Option.map_some, Option.some.injEq, Int.ofNat_eq_natCast] at hhead
        have hcount : owner.count = n := by
          rw [ThreadRow.count, hseq]
          rfl
        omega

/-- One operation keeps what is spent; a commit that succeeds spends what was not. -/
theorem StoreStep.spent {op : SnapshotOp} {r : SnapshotReply} (hstep : StoreStep C db op r db')
    (slot : String × Option Int) :
    (Spent db slot → Spent db' slot) ∧
      (committedAt (op, r) = some slot → ¬ Spent db slot ∧ Spent db' slot) := by
  cases hstep with
  | raised => exact ⟨id, by cases op <;> simp [committedAt]⟩
  | deletedBlank => exact ⟨id, by simp [committedAt]⟩
  | copiedSelf => exact ⟨id, by simp [committedAt]⟩
  | initialized =>
      refine ⟨fun ⟨t, ht, hhead⟩ => ⟨t, ?_, hhead⟩, by simp [committedAt]⟩
      rw [← ht]
      unfold SnapshotDb.initIndex
      cases db.index <;> rfl
  | committed _ hid hfence hext =>
      refine ⟨hext.spent, fun heq => ?_⟩
      obtain rfl := Option.some.inj heq
      rw [← hid]
      exact hext.spends (by simp) hfence
  | copied _ _ _ _ _ hext => exact ⟨hext.spent, by simp [committedAt]⟩
  | copiedThrough _ _ _ _ _ _ _ hext => exact ⟨hext.spent, by simp [committedAt]⟩
  | deleted _ hdel => exact ⟨hdel.spent, by simp [committedAt]⟩

/-- What the history of a run says of the threads. -/
structure Recorded (h : List (SnapshotOp × SnapshotReply)) (db : SnapshotDb) : Prop where
  spent : ∀ e ∈ h, ∀ slot, committedAt e = some slot → Spent db slot
  once : (h.filterMap committedAt).Nodup
  gone : ∀ e ∈ h, ∀ k, deletedThread e = some k → Tombstoned db k
  final : h.Pairwise fun newer older =>
    ∀ k, deletedThread older = some k → writtenThread newer ≠ some k

theorem recorded_of_run {h : List (SnapshotOp × SnapshotReply)}
    (hrun : C.snapshotStore.Run h db) : Recorded h db := by
  refine Machine.Run.invariant (I := Recorded)
    ⟨by simp, List.nodup_nil, by simp, List.Pairwise.nil⟩ ?_ hrun
  intro h s op r s' _ hI hs
  have hstep := stepStore_eq hs
  refine ⟨fun e he slot hslot => ?_, ?_, fun e he k hk => ?_, ?_⟩
  · rcases List.mem_cons.mp he with rfl | he
    · exact ((hstep.spent slot).2 hslot).2
    · exact (hstep.spent slot).1 (hI.spent e he slot hslot)
  · cases hcommit : committedAt (op, r) with
    | none =>
        rw [List.filterMap_cons_none hcommit]
        exact hI.once
    | some slot =>
        rw [List.filterMap_cons_some hcommit, List.nodup_cons]
        refine ⟨fun hmem => ?_, hI.once⟩
        obtain ⟨e, he, hslot⟩ := List.mem_filterMap.mp hmem
        exact ((hstep.spent slot).2 hcommit).1 (hI.spent e he slot hslot)
  · rcases List.mem_cons.mp he with rfl | he
    · exact (hstep.tombstones k).2 hk
    · exact ((hstep.tombstones k).1 (hI.gone e he k hk)).1
  · refine List.pairwise_cons.mpr ⟨fun e he k hk => ?_, hI.final⟩
    exact ((hstep.tombstones k).1 (hI.gone e he k hk)).2

/-! ## 4.  Chains and the fence -/

/-- **The chain and its fence.**  In every run, the boundaries of a live thread are numbered
from 1 to its head, each names the one before it, and the head names the last; of the
commits to a thread that expect one head, at most one succeeds; a deleted thread has no
boundaries, and nothing is written to it after its deletion; and an operation that raises
leaves every table as it was. -/
theorem snapshot_chains {h : List (SnapshotOp × SnapshotReply)} {s : SnapshotDb}
    (hrun : C.snapshotStore.Run h s) :
    (∀ k t, s.threads.find? k = some t → t.tombstonedAt = none →
      ∃ n, 0 < n ∧ t.headSeq = some n ∧ (s.boundaries k).map (·.seq) = List.range' 1 n ∧
        (s.boundaries k).map (·.parentSnapshotId) =
          ("" :: (s.boundaries k).map (·.snapshotId)).dropLast ∧
        t.headSnapshotId = ((s.boundaries k).map (·.snapshotId)).getLast?) ∧
    (h.filterMap committedAt).Nodup ∧
    (∀ e ∈ h, ∀ k, deletedThread e = some k →
      (∃ t, s.threads.find? k = some t ∧ t.tombstonedAt ≠ none) ∧ s.boundaries k = []) ∧
    (h.Pairwise fun newer older =>
      ∀ k, deletedThread older = some k → writtenThread newer ≠ some k) ∧
    ∀ op e s', C.stepStore op s = (.raised e, s') → s' = s := by
  have hchained := chained_of_run hrun
  have hrecorded := recorded_of_run hrun
  refine ⟨fun k t hk htomb => ?_, hrecorded.once, fun e he k hk => ?_, hrecorded.final,
    fun op e s' hs => ?_⟩
  · obtain ⟨hne, hseq, hid, hlog⟩ := hchained.live k t hk htomb
    rw [hchained.boundaries_eq]
    exact ⟨_, List.length_pos_of_ne_nil hne, hseq, hlog.seqs, hlog.parents,
      by rw [hid, Linked.getLast?_map_ident hne]⟩
  · obtain ⟨t, ht, htomb⟩ := hrecorded.gone e he k hk
    rw [hchained.boundaries_eq]
    exact ⟨⟨t, ht, htomb⟩, hchained.dead k t ht htomb⟩
  · have hstep := stepStore_eq hs
    generalize hr : SnapshotReply.raised e = r at hstep
    cases hstep with
    | raised => rfl
    | _ => exact absurd hr (by simp)

/-- Two writers start one thread, and it is deleted. -/
def writersRace : List SnapshotOp :=
  [modelStep "t" "r" "c" none 1, modelStep "t" "r" "c" none 2, .delete "t" 0]

/-- Where `writersRace` ends. -/
def afterRace : List (SnapshotOp × SnapshotReply) × SnapshotDb :=
  SnapshotCodec.plain.snapshotStore.exec ([], SnapshotDb.empty) writersRace

theorem snapshot_chains_race :
    afterRace.1.map Prod.snd =
      [.done, .raised ⟨.storeConflict, "snapshot head changed for t"⟩,
        .committed ⟨"t", 1, newSnapshotId 1⟩] ∧
    (afterRace.1.filterMap committedAt).Nodup ∧
    ∀ op e s', SnapshotCodec.plain.stepStore op afterRace.2 = (.raised e, s') → s' = afterRace.2 :=
  have hall := snapshot_chains (C := SnapshotCodec.plain) (h := afterRace.1) (s := afterRace.2)
    (Machine.Run.exec .start writersRace)
  ⟨by decide +kernel, hall.2.1, hall.2.2.2.2⟩

end AgentEngine
end VariantOne
