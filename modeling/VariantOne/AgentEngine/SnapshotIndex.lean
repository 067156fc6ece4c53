import VariantOne.AgentEngine.SnapshotChain
import VariantOne.Lib.Keyset

/-!
# The commit cursor of a chat

The index mirrors the boundaries: its rows are the rows of the snapshot table, in the same
order, each with the chat of its thread and an ordinal larger than every one before
(`Mirrors`, kept by every operation: `mirrors_of_run`).  So pages by ordinal enumerate the
live boundaries of a chat (`Mirrors.pages`).

The epoch of a chat says when its earlier rows may have changed.  A row of a page is an
order row joined to its boundary and its thread: boundaries stay as they are or go, and what
is shown of the thread is its source.  So rows change when an order row comes or goes, and
when a thread takes another source (`Advanced.contextRows`).  The triggers count a deletion
and a move between two chats.  Two changes escape them (`Uncounted`): a thread that has
boundaries and no chat, whose next commit names one, and a commit with another source for a
thread that keeps its chat.  Without them, `context_cursor_stable`.
-/

namespace VariantOne
namespace AgentEngine

variable {C : SnapshotCodec} {db db' : SnapshotDb} {ix ix' : ContextIndex}

/-! ## 1.  The triggers -/

namespace ContextIndex

/-- The order rows of boundaries that are appended after an ordinal. -/
def appended (chat : String) : Nat → List SnapshotRow → List OrderRow
  | _, [] => []
  | n, r :: rs => ⟨n + 1, chat, r.threadId, r.seq, r.snapshotId⟩ :: appended chat (n + 1) rs

theorem foldl_append (chat : String) (rs : List SnapshotRow) (ix : ContextIndex) :
    rs.foldl (fun ix r => ix.append chat r) ix =
      ⟨ix.order ++ appended chat ix.lastOrdinal rs, ix.lastOrdinal + rs.length, ix.scope⟩ := by
  induction rs generalizing ix with
  | nil => simp [appended]
  | cons r rs ih =>
      rw [List.foldl_cons, ih]
      show ContextIndex.mk ((ix.order ++ [_]) ++ appended chat (ix.lastOrdinal + 1) rs)
        (ix.lastOrdinal + 1 + rs.length) ix.scope = _
      rw [List.append_assoc, List.length_cons, Nat.add_assoc, Nat.add_comm 1]
      rfl

/-- Appended rows are numbered from the next ordinal on, under one chat. -/
theorem mem_appended {chat : String} {n : Nat} {rs : List SnapshotRow} {o : OrderRow}
    (h : o ∈ appended chat n rs) :
    n < o.ordinal ∧ o.ordinal ≤ n + rs.length ∧ o.chatId = chat ∧ ∃ r ∈ rs, o.threadId = r.threadId := by
  induction rs generalizing n with
  | nil => exact absurd h (by simp [appended])
  | cons r rs ih =>
      rw [appended] at h
      rcases List.mem_cons.mp h with rfl | h
      · refine ⟨Nat.lt_succ_self n, ?_, rfl, r, by simp, rfl⟩
        show n + 1 ≤ n + (r :: rs).length
        rw [List.length_cons]
        omega
      · obtain ⟨hlt, hle, hchat, r', hr', hthread⟩ := ih h
        rw [List.length_cons]
        exact ⟨by omega, by omega, hchat, r', List.mem_cons_of_mem _ hr', hthread⟩

theorem increasing_appended (chat : String) (n : Nat) (rs : List SnapshotRow) :
    Keyset.Increasing OrderRow.ordinal (appended chat n rs) := by
  induction rs generalizing n with
  | nil => exact List.Pairwise.nil
  | cons r rs ih => exact List.pairwise_cons.mpr ⟨fun o ho => (mem_appended ho).1, ih (n + 1)⟩

/-- The epoch of a chat among the epochs. -/
def epochIn (scope : List (String × Nat)) (chat : String) : Nat := (Dict.get? scope chat).getD 0

theorem epoch_eq (ix : ContextIndex) (chat : String) : ix.epoch chat = epochIn ix.scope chat := rfl

theorem epochIn_bump (scope : List (String × Nat)) (chat c : String) :
    epochIn (bump scope chat) c = epochIn scope c + if c = chat then 1 else 0 := by
  unfold epochIn bump
  by_cases h : c = chat
  · rw [if_pos h, h, Dict.get?_set_self]
    cases Dict.get? scope chat <;> rfl
  · rw [if_neg h, Dict.get?_set_of_ne (Ne.symm h)]
    rfl

/-- Several bumps count those of a chat. -/
theorem epochIn_foldl_bump (gone : List OrderRow) (scope : List (String × Nat)) (c : String) :
    epochIn (gone.foldl (fun scope o => bump scope o.chatId) scope) c =
      epochIn scope c + gone.countP fun o => o.chatId = c := by
  induction gone generalizing scope with
  | nil => rfl
  | cons o gone ih =>
      rw [List.foldl_cons, ih, epochIn_bump, List.countP_cons]
      simp only [decide_eq_true_eq, eq_comm (a := c)]
      omega

/-- A boundary is what an order row stands for. -/
def OrdersRow (o : OrderRow) (r : SnapshotRow) : Prop :=
  o.threadId = r.threadId ∧ o.sequence = r.seq

instance (o : OrderRow) (r : SnapshotRow) : Decidable (OrdersRow o r) :=
  inferInstanceAs (Decidable (_ ∧ _))

/-- Deleting boundaries drops their order rows and counts each for its chat. -/
theorem foldl_afterDelete (rs : List SnapshotRow) (ix : ContextIndex) :
    (rs.foldl afterDelete ix).order = ix.order.filter (fun o => decide (∀ r ∈ rs, ¬ OrdersRow o r)) ∧
      (rs.foldl afterDelete ix).lastOrdinal = ix.lastOrdinal ∧
      ∀ c, ix.epoch c ≤ (rs.foldl afterDelete ix).epoch c ∧
        ((∃ o ∈ ix.order, o.chatId = c ∧ ∃ r ∈ rs, OrdersRow o r) →
          ix.epoch c < (rs.foldl afterDelete ix).epoch c) := by
  induction rs generalizing ix with
  | nil => exact ⟨by simp, rfl, fun c => ⟨Nat.le_refl _, by simp⟩⟩
  | cons r rs ih =>
      obtain ⟨horder, hlast, hepoch⟩ := ih (ix.afterDelete r)
      rw [List.foldl_cons]
      have hone : ∀ c, (ix.afterDelete r).epoch c = ix.epoch c +
          (ix.order.filter fun o => decide (OrdersRow o r)).countP fun o => o.chatId = c :=
        fun c => epochIn_foldl_bump _ _ _
      refine ⟨?_, hlast, fun c => ?_⟩
      · rw [horder]
        show List.filter _ (List.filter _ ix.order) = _
        rw [List.filter_filter]
        refine List.filter_congr fun o _ => ?_
        simp only [List.forall_mem_cons, Bool.decide_and, decide_not, OrdersRow]
        exact Bool.and_comm _ _
      · obtain ⟨hle, hlt⟩ := hepoch c
        have hc := hone c
        refine ⟨by omega, ?_⟩
        rintro ⟨o, ho, hchat, r', hr', horders⟩
        rcases List.mem_cons.mp hr' with rfl | hr'
        · have hcount : 0 < (ix.order.filter fun o => decide (OrdersRow o r')).countP
              fun o => o.chatId = c :=
            List.countP_pos_iff.mpr ⟨o, List.mem_filter.mpr ⟨ho, by simpa using horders⟩, by simpa using hchat⟩
          omega
        · by_cases hgone : OrdersRow o r
          · have hcount : 0 < (ix.order.filter fun o => decide (OrdersRow o r)).countP
                fun o => o.chatId = c :=
              List.countP_pos_iff.mpr ⟨o, List.mem_filter.mpr ⟨ho, by simpa using hgone⟩, by simpa using hchat⟩
            omega
          · have hkept : o ∈ (ix.afterDelete r).order := by
              refine List.mem_filter.mpr ⟨ho, ?_⟩
              rw [Bool.not_eq_true', decide_eq_false_iff_not]
              exact hgone
            have hstrict := hlt ⟨o, hkept, hchat, r', hr', horders⟩
            omega

/-- An order row of a thread, under another chat. -/
def moved (thread chat : String) (o : OrderRow) : OrderRow :=
  if o.threadId = thread then { o with chatId := chat } else o

/-- An owner change, of a thread whose order rows have its chat. -/
theorem ownerChange_eq {old new : ThreadRow} (hid : new.threadId = old.threadId)
    (htomb : old.tombstonedAt = new.tombstonedAt) (hhas : ix.hasThread old.threadId = true)
    (hchats : ∀ o ∈ ix.order, o.threadId = old.threadId → o.chatId = old.chatId) :
    ix.ownerChange old new = ⟨ix.order.map (moved old.threadId new.chatId), ix.lastOrdinal,
      if old.chatId = new.chatId then ix.scope else ownerEpochs ix.scope old.chatId new.chatId⟩ := by
  unfold ownerChange
  by_cases hchat : old.chatId = new.chatId
  · rw [if_neg (by simp [hchat, htomb]), if_pos hchat]
    have hmap : ix.order.map (moved old.threadId new.chatId) = ix.order := by
      refine (List.map_congr_left fun o ho => ?_).trans (List.map_id _)
      unfold moved
      split
      · rename_i hthread
        rw [← hchat, ← hchats o ho hthread]
        rfl
      · rfl
    rw [hmap]
  · rw [if_pos ⟨.inl hchat, hhas⟩, if_neg hchat, hid]
    rfl

theorem ordinal_moved (thread chat : String) (o : OrderRow) :
    (moved thread chat o).ordinal = o.ordinal := by
  unfold moved
  split <;> rfl

theorem threadId_moved (thread chat : String) (o : OrderRow) :
    (moved thread chat o).threadId = o.threadId := by
  unfold moved
  split <;> rfl

end ContextIndex

/-! ## 2.  The index mirrors the boundaries -/

/-- What identifies a boundary. -/
def SnapshotRow.key (r : SnapshotRow) : String × Nat × String := (r.threadId, r.seq, r.snapshotId)

/-- What an order row points to. -/
def OrderRow.key (o : OrderRow) : String × Nat × String := (o.threadId, o.sequence, o.snapshotId)

/-- The order rows are the boundaries, numbered in the order they were inserted. -/
structure Mirrors (db : SnapshotDb) (ix : ContextIndex) : Prop where
  keys : ix.order.map OrderRow.key = db.snapshots.rows.map SnapshotRow.key
  increasing : Keyset.Increasing OrderRow.ordinal ix.order
  bounds : ∀ o ∈ ix.order, 0 < o.ordinal ∧ o.ordinal ≤ ix.lastOrdinal
  chats : ∀ o ∈ ix.order, ∀ t, db.threads.find? o.threadId = some t → o.chatId = t.chatId

theorem Mirrors.row (hm : Mirrors db ix) {o : OrderRow} (ho : o ∈ ix.order) :
    ∃ r ∈ db.snapshots.rows, r.key = o.key := by
  have hmem : o.key ∈ ix.order.map OrderRow.key := List.mem_map_of_mem ho
  rw [hm.keys] at hmem
  obtain ⟨r, hr, hkey⟩ := List.mem_map.mp hmem
  exact ⟨r, hr, hkey⟩

theorem Mirrors.order (hm : Mirrors db ix) {r : SnapshotRow} (hr : r ∈ db.snapshots.rows) :
    ∃ o ∈ ix.order, o.key = r.key := by
  have hmem : r.key ∈ db.snapshots.rows.map SnapshotRow.key := List.mem_map_of_mem hr
  rw [← hm.keys] at hmem
  obtain ⟨o, ho, hkey⟩ := List.mem_map.mp hmem
  exact ⟨o, ho, hkey⟩

/-- What an order row is joined to. -/
theorem Mirrors.join (hm : Mirrors db ix) (h : Chained db) {o : OrderRow} (ho : o ∈ ix.order) :
    ∃ r ∈ db.snapshots.rows, r.key = o.key ∧
      ∃ t, db.threads.find? o.threadId = some t ∧ t.tombstonedAt = none ∧
        db.join o = some ⟨o.ordinal, o.threadId, r.seq, r.snapshotId, r.parentSnapshotId, r.runId,
          t.source, r.completedNode, r.nextNode⟩ := by
  obtain ⟨r, hr, hkey⟩ := hm.row ho
  obtain ⟨hthread, hseq, hid⟩ := (by simpa [SnapshotRow.key, OrderRow.key] using hkey :
    r.threadId = o.threadId ∧ r.seq = o.sequence ∧ r.snapshotId = o.snapshotId)
  obtain ⟨t, ht, htomb⟩ := h.live_of_row hr
  rw [hthread] at ht
  refine ⟨r, hr, hkey, t, ht, htomb, ?_⟩
  have hlive : db.liveThread o.threadId = some t := liveThread_eq_some_iff.mpr ⟨ht, htomb⟩
  have hselect : db.select ⟨o.threadId, o.sequence, o.snapshotId⟩ = some r := by
    rw [← hthread, ← hseq, ← hid]
    exact h.select hr
  have htid : t.threadId = o.threadId := Table.key_of_find? ht
  rw [SnapshotDb.join, hlive, hselect]
  dsimp only
  rw [htid]

/-- The rows of a chat are its order rows, joined. -/
theorem Mirrors.contextRows_eq (hm : Mirrors db ix) (hix : db.index = some ix) (chat : String)
    (after through : Nat) :
    db.contextRows chat after through =
      (ix.order.filter fun o => decide (o.chatId = chat ∧ after < o.ordinal ∧ o.ordinal ≤ through)).filterMap
        db.join := by
  rw [SnapshotDb.contextRows, hix]
  exact congrArg (List.filterMap db.join) (hm.increasing.filter _).insertionSort_eq

/-! ## 3.  What one operation does to the index -/

theorem Mirrors.extended (hm : Mirrors db ix) (h : Chained db) (hix : db.index = some ix)
    {owner after : ThreadRow} {new : List SnapshotRow} (hext : Extended db db' owner after new)
    (hne : new ≠ []) :
    ∃ ix', db'.index = some ix' ∧ Mirrors db' ix' ∧
      ix'.order = (ix.order ++ ContextIndex.appended owner.chatId ix.lastOrdinal new).map
        (ContextIndex.moved owner.threadId after.chatId) ∧
      ix'.lastOrdinal = ix.lastOrdinal + new.length ∧
      ix'.scope = if owner.chatId = after.chatId then ix.scope
        else ContextIndex.ownerEpochs ix.scope owner.chatId after.chatId := by
  have hold : ∀ o ∈ ix.order, o.threadId = owner.threadId →
      db.threads.find? owner.threadId = some owner ∧ o.chatId = owner.chatId := by
    intro o ho hthread
    obtain ⟨r, hr, hkey⟩ := hm.row ho
    have hrthread : r.threadId = owner.threadId := (congrArg Prod.fst hkey).trans hthread
    rcases hext.opened with ⟨hnone, -⟩ | hfind
    · have hmem := mem_rowsOf.mpr ⟨hr, hrthread⟩
      rw [h.unknown _ hnone] at hmem
      exact absurd hmem (by simp)
    · exact ⟨hfind, hm.chats o ho owner (by rw [hthread, hfind])⟩
  have hchats : ∀ o ∈ ix.order ++ ContextIndex.appended owner.chatId ix.lastOrdinal new,
      o.threadId = owner.threadId → o.chatId = owner.chatId := by
    intro o ho hthread
    rcases List.mem_append.mp ho with ho | ho
    · exact (hold o ho hthread).2
    · exact (ContextIndex.mem_appended ho).2.2.1
  obtain ⟨r, rest, rfl⟩ := List.exists_cons_of_ne_nil hne
  have hhas : (ContextIndex.mk (ix.order ++ ContextIndex.appended owner.chatId ix.lastOrdinal (r :: rest))
      (ix.lastOrdinal + (r :: rest).length) ix.scope).hasThread owner.threadId = true := by
    refine List.any_eq_true.mpr ⟨_, List.mem_append_right _ List.mem_cons_self, ?_⟩
    simpa using hext.owned r List.mem_cons_self
  have hindex := hext.index
  rw [hix, Option.map_some, ContextIndex.foldl_append,
    ContextIndex.ownerChange_eq hext.threadId (hext.live.1.trans hext.live.2.symm) hhas hchats] at hindex
  refine ⟨_, hindex, ⟨?_, ?_, ?_, ?_⟩, rfl, rfl, rfl⟩
  · have hkeys : ∀ (n : Nat) (rs : List SnapshotRow),
        (ContextIndex.appended owner.chatId n rs).map OrderRow.key = rs.map SnapshotRow.key := by
      intro n rs
      induction rs generalizing n with
      | nil => rfl
      | cons r rs ih => exact congrArg (_ :: ·) (ih (n + 1))
    have hmoved : OrderRow.key ∘ ContextIndex.moved owner.threadId after.chatId = OrderRow.key := by
      funext o
      unfold Function.comp ContextIndex.moved
      split <;> rfl
    show List.map _ (List.map _ _) = _
    rw [List.map_map, hmoved, List.map_append, hm.keys, hkeys, hext.rows, List.map_append]
  · refine List.pairwise_map.mpr ?_
    simp only [ContextIndex.ordinal_moved]
    refine List.pairwise_append.mpr ⟨hm.increasing, ContextIndex.increasing_appended _ _ _, ?_⟩
    intro o ho o' ho'
    exact Nat.lt_of_le_of_lt (hm.bounds o ho).2 (ContextIndex.mem_appended ho').1
  · intro o' ho'
    obtain ⟨o, ho, rfl⟩ := List.mem_map.mp ho'
    rw [ContextIndex.ordinal_moved]
    rcases List.mem_append.mp ho with ho | ho
    · have hb := hm.bounds o ho
      exact ⟨hb.1, Nat.le_trans hb.2 (Nat.le_add_right _ _)⟩
    · have hb := ContextIndex.mem_appended ho
      exact ⟨Nat.lt_of_le_of_lt (Nat.zero_le _) hb.1, hb.2.1⟩
  · intro o' ho' t ht
    obtain ⟨o, ho, rfl⟩ := List.mem_map.mp ho'
    rw [ContextIndex.threadId_moved, hext.threads] at ht
    unfold ContextIndex.moved
    by_cases hthread : o.threadId = owner.threadId
    · rw [if_pos hthread] at ht ⊢
      rw [← Option.some.inj ht]
    · rw [if_neg hthread] at ht ⊢
      rcases List.mem_append.mp ho with ho | ho
      · exact hm.chats o ho t ht
      · obtain ⟨-, -, -, r', hr', hr'thread⟩ := ContextIndex.mem_appended ho
        exact absurd (hr'thread.trans (hext.owned r' hr')) hthread

/-- The order rows of a deleted thread are those its boundaries stand for. -/
theorem Mirrors.keeps_iff (hm : Mirrors db ix) {o : OrderRow} (ho : o ∈ ix.order) (k : String) :
    (∀ r ∈ db.rowsOf k, ¬ ContextIndex.OrdersRow o r) ↔ o.threadId ≠ k := by
  constructor
  · rintro hnone rfl
    obtain ⟨r, hr, hkey⟩ := hm.row ho
    obtain ⟨hthread, hseq, -⟩ := (by simpa [SnapshotRow.key, OrderRow.key] using hkey :
      r.threadId = o.threadId ∧ r.seq = o.sequence ∧ r.snapshotId = o.snapshotId)
    exact hnone r (mem_rowsOf.mpr ⟨hr, hthread⟩) ⟨hthread.symm, hseq.symm⟩
  · intro hne r hr horders
    exact hne (horders.1.trans (mem_rowsOf.mp hr).2)

theorem Mirrors.deleted (hm : Mirrors db ix) (hix : db.index = some ix) {k : String}
    {old : Option ThreadRow} {now : ℚ} (hold : old.isSome) (hdel : Deleted db db' k old now) :
    ∃ ix', db'.index = some ix' ∧ Mirrors db' ix' ∧
      ix'.order = ix.order.filter (fun o => decide (o.threadId ≠ k)) ∧
      ix'.lastOrdinal = ix.lastOrdinal ∧
      ∀ c, ix.epoch c ≤ ix'.epoch c ∧
        ((∃ o ∈ ix.order, o.chatId = c ∧ o.threadId = k) → ix.epoch c < ix'.epoch c) := by
  obtain ⟨t, rfl⟩ := Option.isSome_iff_exists.mp hold
  have hid : t.threadId = k := Table.key_of_find? hdel.found
  obtain ⟨horder, hlast, hepoch⟩ := ContextIndex.foldl_afterDelete (db.rowsOf k) ix
  have hfilter : ((db.rowsOf k).foldl ContextIndex.afterDelete ix).order =
      ix.order.filter (fun o => decide (o.threadId ≠ k)) := by
    rw [horder]
    refine List.filter_congr fun o ho => ?_
    rw [decide_eq_decide]
    exact hm.keeps_iff ho k
  have hindex := hdel.index
  rw [hix] at hindex
  have hnochange : ((db.rowsOf k).foldl ContextIndex.afterDelete ix).ownerChange t (t.tombstone now) =
      (db.rowsOf k).foldl ContextIndex.afterDelete ix := by
    unfold ContextIndex.ownerChange
    rw [if_neg]
    rintro ⟨-, hhas⟩
    obtain ⟨o, ho, hthread⟩ := List.any_eq_true.mp hhas
    rw [hfilter] at ho
    have hne : o.threadId ≠ k := by simpa using (List.mem_filter.mp ho).2
    exact hne ((by simpa using hthread : o.threadId = t.threadId).trans hid)
  refine ⟨_, hindex.trans (congrArg some hnochange), ⟨?_, ?_, ?_, ?_⟩, hfilter, hlast, fun c => ?_⟩
  · rw [hfilter, hdel.rows, if_pos hold]
    have hkey : ∀ {α : Type} (f : α → String × Nat × String) (xs : List α),
        (xs.filter fun x => decide ((f x).1 ≠ k)).map f = (xs.map f).filter fun p => decide (p.1 ≠ k) := by
      intro α f xs
      rw [List.filter_map]
      rfl
    have hrows := hkey SnapshotRow.key db.snapshots.rows
    have horders := hkey OrderRow.key ix.order
    rw [hm.keys] at horders
    refine horders.trans (hrows.symm.trans ?_)
    congr 1
    refine List.filter_congr fun r _ => ?_
    rw [← decide_not]
    rfl
  · rw [hfilter]
    exact hm.increasing.filter _
  · rw [hfilter, hlast]
    intro o ho
    exact hm.bounds o (List.mem_of_mem_filter ho)
  · rw [hfilter]
    intro o ho t' ht'
    have hne : o.threadId ≠ k := by simpa using (List.mem_filter.mp ho).2
    rw [hdel.threads _ hne] at ht'
    exact hm.chats o (List.mem_of_mem_filter ho) t' ht'
  · refine ⟨(hepoch c).1, ?_⟩
    rintro ⟨o, ho, hchat, hthread⟩
    refine (hepoch c).2 ⟨o, ho, hchat, ?_⟩
    by_contra hno
    exact (hm.keeps_iff ho k).mp (fun r hr horders => hno ⟨r, hr, horders⟩) hthread

/-- The backfill numbers the boundaries there are. -/
theorem mirrors_initIndex (h : Chained db) (hnone : db.index = none) :
    ∃ ix, db.initIndex.index = some ix ∧ Mirrors db.initIndex ix := by
  have hinit : db.initIndex =
      { db with index := some (ContextIndex.backfill db.threads db.snapshots.rows) } := by
    unfold SnapshotDb.initIndex
    rw [hnone]
  -- the invariant of the fold: the boundaries before `rest` are numbered
  have hfold : ∀ number : ContextIndex → SnapshotRow → ContextIndex,
      (∀ ix r t, db.threads.find? r.threadId = some t → ix.orders r.threadId r.seq = false →
        number ix r = ix.append t.chatId r) →
      ∀ (rest done : List SnapshotRow) (ix : ContextIndex),
      db.snapshots.rows = done ++ rest → ix.order.map OrderRow.key = done.map SnapshotRow.key →
      Keyset.Increasing OrderRow.ordinal ix.order →
      (∀ o ∈ ix.order, 0 < o.ordinal ∧ o.ordinal ≤ ix.lastOrdinal) →
      (∀ o ∈ ix.order, ∀ t, db.threads.find? o.threadId = some t → o.chatId = t.chatId) →
      Mirrors db (rest.foldl number ix) := by
    intro number hnumber rest
    induction rest with
    | nil =>
        intro done ix hrows hkeys hinc hbounds hchats
        rw [List.append_nil] at hrows
        exact ⟨hkeys.trans (congrArg _ hrows.symm), hinc, hbounds, hchats⟩
    | cons r rest ih =>
        intro done ix hrows hkeys hinc hbounds hchats
        have hr : r ∈ db.snapshots.rows := by rw [hrows]; simp
        obtain ⟨t, ht, -⟩ := h.live_of_row hr
        have hfresh : ix.orders r.threadId r.seq = false := by
          refine Bool.eq_false_iff.mpr fun horders => ?_
          obtain ⟨o, ho, hmatch⟩ := List.any_eq_true.mp horders
          have hmem : o.key ∈ done.map SnapshotRow.key := hkeys ▸ List.mem_map_of_mem ho
          obtain ⟨r', hr', hkey⟩ := List.mem_map.mp hmem
          obtain ⟨hthread, hseq⟩ := (by simpa using hmatch : o.threadId = r.threadId ∧ o.sequence = r.seq)
          have hrow : r' = r := h.eq_of_seq (by rw [hrows]; exact List.mem_append_left _ hr') hr
            ((congrArg Prod.fst hkey).trans hthread) ((congrArg (·.2.1) hkey).trans hseq)
          have hnodup : db.snapshots.rows.Nodup := List.Nodup.of_map _ db.snapshots.unique
          rw [hrows, List.nodup_append] at hnodup
          exact hnodup.2.2 r' hr' r List.mem_cons_self hrow
        rw [List.foldl_cons, hnumber ix r t ht hfresh]
        refine ih (done ++ [r]) _ (by rw [hrows, List.append_assoc]; rfl) ?_ ?_ ?_ ?_
        · rw [ContextIndex.append, List.map_append, hkeys, List.map_append]
          rfl
        · refine List.pairwise_append.mpr ⟨hinc, List.pairwise_singleton _ _, fun o ho o' ho' => ?_⟩
          obtain rfl := List.mem_singleton.mp ho'
          exact Nat.lt_succ_of_le (hbounds o ho).2
        · intro o ho
          rcases List.mem_append.mp ho with ho | ho
          · exact ⟨(hbounds o ho).1, Nat.le_succ_of_le (hbounds o ho).2⟩
          · obtain rfl := List.mem_singleton.mp ho
            exact ⟨Nat.succ_pos _, Nat.le_refl _⟩
        · intro o ho t' ht'
          rcases List.mem_append.mp ho with ho | ho
          · exact hchats o ho t' ht'
          · obtain rfl := List.mem_singleton.mp ho
            rw [show db.threads.find? r.threadId = some t from ht] at ht'
            exact congrArg (fun t : ThreadRow => t.chatId) (Option.some.inj ht')
  have hbackfill : Mirrors db (ContextIndex.backfill db.threads db.snapshots.rows) := by
    unfold ContextIndex.backfill
    refine hfold _ (fun ix r t ht hfresh => ?_) _ [] ⟨[], 0, []⟩ rfl rfl .nil (by simp) (by simp)
    rw [ht]
    dsimp only
    rw [hfresh, if_neg (by simp)]
  rw [hinit]
  obtain ⟨hkeys, hinc, hbounds, hchats⟩ := hbackfill
  exact ⟨_, rfl, hkeys, hinc, hbounds, hchats⟩

/-- In every run, an index that is there mirrors the boundaries. -/
theorem mirrors_of_run {h : List (SnapshotOp × SnapshotReply)} (hrun : C.snapshotStore.Run h db)
    (hix : db.index = some ix) : Mirrors db ix := by
  refine (Machine.Run.invariant (I := fun _ s => Chained s ∧ ∀ ix, s.index = some ix → Mirrors s ix)
    ⟨chained_empty, fun ix hix => absurd hix (by simp [SnapshotCodec.snapshotStore, SnapshotDb.empty])⟩
    ?_ hrun).2 ix hix
  intro h s op r s' _ hI hs
  have hstep := stepStore_eq hs
  refine ⟨hstep.chained hI.1, fun ix' hix' => ?_⟩
  have hextended : ∀ {owner after : ThreadRow} {new : List SnapshotRow},
      Extended s s' owner after new → new ≠ [] → Mirrors s' ix' := by
    intro owner after new hext hne
    cases hindex : s.index with
    | none =>
        have hnone := hext.index
        rw [hindex, hix'] at hnone
        exact absurd hnone (by simp)
    | some ix =>
        obtain ⟨ix₁, hix₁, hm, -⟩ := (hI.2 ix hindex).extended hI.1 hindex hext hne
        rw [hix', Option.some.injEq] at hix₁
        rwa [hix₁]
  cases hstep with
  | raised => exact hI.2 ix' hix'
  | deletedBlank => exact hI.2 ix' hix'
  | copiedSelf => exact hI.2 ix' hix'
  | initialized =>
      cases hindex : s.index with
      | none =>
          obtain ⟨ix₁, hix₁, hm⟩ := mirrors_initIndex hI.1 hindex
          rw [hix', Option.some.injEq] at hix₁
          rwa [hix₁]
      | some ix =>
          have hsame : s.initIndex = s := by
            unfold SnapshotDb.initIndex
            rw [hindex]
          rw [hsame] at hix' ⊢
          exact hI.2 ix' hix'
  | committed _ _ _ hext => exact hextended hext (by simp)
  | copied _ hsource _ hlen _ hext =>
      exact hextended hext
        (List.ne_nil_of_length_pos (by rw [hlen]; exact hI.1.copySource_pos hsource))
  | copiedThrough hpos _ _ hlen _ _ _ hext =>
      exact hextended hext (List.ne_nil_of_length_pos (by rw [hlen]; exact hpos.2))
  | @deleted thread now _ _ hdel =>
      have hindex' := hdel.index
      cases hindex : s.index with
      | none =>
          rw [hindex, hix'] at hindex'
          split at hindex' <;> exact absurd hindex' (by simp)
      | some ix =>
          cases hold : s.threads.find? (strip thread) with
          | some t =>
              rw [hold] at hdel
              obtain ⟨ix₁, hix₁, hm, -⟩ := (hI.2 ix hindex).deleted hindex (by simp) hdel
              rw [hix', Option.some.injEq] at hix₁
              rwa [hix₁]
          | none =>
              rw [hold] at hdel
              have hsame : s'.index = s.index := hdel.index
              rw [hix', hindex, Option.some.injEq] at hsame
              subst hsame
              obtain ⟨hkeys, hinc, hbounds, hchats⟩ := hI.2 ix' hindex
              refine ⟨by rw [hdel.rows]; exact hkeys, hinc, hbounds, fun o ho t ht => ?_⟩
              obtain ⟨r, hr, hkey⟩ := (hI.2 ix' hindex).row ho
              obtain ⟨t₀, ht₀, -⟩ := hI.1.live_of_row hr
              rw [show r.threadId = o.threadId from congrArg Prod.fst hkey] at ht₀
              have hne : o.threadId ≠ strip thread := by
                intro heq
                rw [heq, hold] at ht₀
                exact absurd ht₀ (by simp)
              rw [hdel.threads _ hne] at ht
              exact hchats o ho t ht

/-! ## 4.  Pages -/

/-- The pages of a chat through an ordinal: each starts after the last row of the one
before. -/
def SnapshotDb.contextPages (db : SnapshotDb) (chat : String) (through limit : Nat) :
    Nat → Nat → List ContextRow
  | 0, _ => []
  | fuel + 1, after =>
      let page := db.contextCommitPage chat after through limit
      match page.getLast? with
      | none => []
      | some r => page ++ contextPages db chat through limit fuel r.ordinal

/-- The ordinal of a boundary. -/
def SnapshotDb.ordinal? (db : SnapshotDb) (thread : String) (sequence : Nat) : Option Nat :=
  db.index.bind fun ix =>
    (ix.order.find? fun o => decide (o.threadId = thread ∧ o.sequence = sequence)).map (·.ordinal)

theorem Mirrors.ordinal?_eq (hm : Mirrors db ix) (h : Chained db) (hix : db.index = some ix)
    {o : OrderRow} (ho : o ∈ ix.order) : db.ordinal? o.threadId o.sequence = some o.ordinal := by
  unfold SnapshotDb.ordinal?
  rw [hix, Option.bind_some]
  cases hfound : ix.order.find? fun x => decide (x.threadId = o.threadId ∧ x.sequence = o.sequence) with
  | none =>
      have hno := List.find?_eq_none.mp hfound o ho
      rw [decide_eq_true_eq] at hno
      exact absurd ⟨rfl, rfl⟩ hno
  | some o' =>
      have ho' : o' ∈ ix.order := List.mem_of_find?_eq_some hfound
      have hmatch : o'.threadId = o.threadId ∧ o'.sequence = o.sequence := by
        simpa using List.find?_some hfound
      obtain ⟨r, hr, hkey⟩ := hm.row ho
      obtain ⟨r', hr', hkey'⟩ := hm.row ho'
      have hrow : r' = r := h.eq_of_seq hr' hr
        ((congrArg Prod.fst hkey').trans (hmatch.1.trans (congrArg Prod.fst hkey).symm))
        ((congrArg (·.2.1) hkey').trans (hmatch.2.trans (congrArg (·.2.1) hkey).symm))
      have hnodup : (ix.order.map OrderRow.key).Nodup := by
        rw [hm.keys]
        refine List.Nodup.of_map (fun p : String × Nat × String => p.2.2) ?_
        rw [List.map_map]
        exact db.snapshots.unique
      have heq : o' = o := List.inj_on_of_nodup_map hnodup ho' ho
        (hkey'.symm.trans ((congrArg SnapshotRow.key hrow).trans hkey))
      rw [heq]
      rfl

/-- Joining keeps the ordinal. -/
theorem ordinal_of_join {o : OrderRow} {row : ContextRow} (h : db.join o = some row) :
    row.ordinal = o.ordinal := by
  unfold SnapshotDb.join at h
  split at h
  · rw [← Option.some.inj h]
  · exact absurd h (by simp)

theorem Mirrors.increasing_contextRows (hm : Mirrors db ix) (hix : db.index = some ix)
    (chat : String) (after through : Nat) :
    Keyset.Increasing ContextRow.ordinal (db.contextRows chat after through) := by
  rw [hm.contextRows_eq hix]
  refine List.Pairwise.filterMap _ (fun o o' hlt row hrow row' hrow' => ?_) (hm.increasing.filter _)
  rw [ordinal_of_join hrow, ordinal_of_join hrow']
  exact hlt

/-- A page starts where the rows after its key start. -/
theorem Mirrors.contextRows_after (hm : Mirrors db ix) (hix : db.index = some ix) (chat : String)
    (after through : Nat) :
    db.contextRows chat after through =
      (db.contextRows chat 0 through).filter fun row => decide (after < row.ordinal) := by
  refine Keyset.Increasing.eq_of_mem_iff (hm.increasing_contextRows hix chat after through)
    ((hm.increasing_contextRows hix chat 0 through).filter _) fun row => ?_
  rw [hm.contextRows_eq hix, hm.contextRows_eq hix, List.mem_filter, List.mem_filterMap,
    List.mem_filterMap]
  simp only [List.mem_filter, decide_eq_true_eq]
  constructor
  · rintro ⟨o, ⟨ho, hchat, hafter, hthrough⟩, hjoin⟩
    exact ⟨⟨o, ⟨ho, hchat, by omega, hthrough⟩, hjoin⟩, by rw [ordinal_of_join hjoin]; exact hafter⟩
  · rintro ⟨⟨o, ⟨ho, hchat, -, hthrough⟩, hjoin⟩, hafter⟩
    exact ⟨o, ⟨ho, hchat, by rw [← ordinal_of_join hjoin]; exact hafter, hthrough⟩, hjoin⟩

theorem Mirrors.contextPages_eq (hm : Mirrors db ix) (hix : db.index = some ix) (chat : String)
    (through limit fuel after : Nat) :
    db.contextPages chat through limit fuel after =
      Keyset.pages ContextRow.ordinal (db.contextRows chat 0 through) (max 1 (min limit 200)) fuel
        after := by
  induction fuel generalizing after with
  | zero => rfl
  | succ fuel ih =>
      rw [SnapshotDb.contextPages, Keyset.pages, SnapshotDb.contextCommitPage,
        hm.contextRows_after hix chat after through]
      simp only [ih]
      cases (List.take (max 1 (min limit 200))
        ((db.contextRows chat 0 through).filter fun row => decide (after < row.ordinal))).getLast? <;> rfl

/-- **Pages enumerate the boundaries of a chat.** -/
theorem Mirrors.pages (hm : Mirrors db ix) (h : Chained db) (hix : db.index = some ix)
    (chat : String) (through limit fuel : Nat)
    (hfuel : (db.contextRows chat 0 through).length < fuel) :
    (db.contextPages chat through limit fuel 0).Pairwise (fun row row' => row.ordinal < row'.ordinal) ∧
      ∀ row, row ∈ db.contextPages chat through limit fuel 0 ↔
        ∃ t r, db.threads.find? r.threadId = some t ∧ t.tombstonedAt = none ∧ t.chatId = chat ∧
          r ∈ db.snapshots.rows ∧ db.ordinal? r.threadId r.seq = some row.ordinal ∧
          row.ordinal ≤ through ∧
          row = ⟨row.ordinal, r.threadId, r.seq, r.snapshotId, r.parentSnapshotId, r.runId, t.source,
            r.completedNode, r.nextNode⟩ := by
  have hrows : db.contextPages chat through limit fuel 0 = db.contextRows chat 0 through := by
    rw [hm.contextPages_eq hix, Keyset.pages_eq (hm.increasing_contextRows hix chat 0 through)
      (by omega) (by rwa [← hm.contextRows_after hix]), ← hm.contextRows_after hix]
  rw [hrows]
  refine ⟨hm.increasing_contextRows hix chat 0 through, fun row => ?_⟩
  rw [hm.contextRows_eq hix, List.mem_filterMap]
  simp only [List.mem_filter, decide_eq_true_eq]
  constructor
  · rintro ⟨o, ⟨ho, hchat, -, hthrough⟩, hjoin⟩
    obtain ⟨r, hr, hkey, t, ht, htomb, hjoined⟩ := hm.join h ho
    obtain ⟨hthread, hseq, -⟩ := (by simpa [SnapshotRow.key, OrderRow.key] using hkey :
      r.threadId = o.threadId ∧ r.seq = o.sequence ∧ r.snapshotId = o.snapshotId)
    rw [hjoin, Option.some.injEq] at hjoined
    have hordinal := hm.ordinal?_eq h hix ho
    subst hjoined
    exact ⟨t, r, by rw [hthread, ht], htomb, (hm.chats o ho t ht).symm.trans hchat, hr,
      by rw [hthread, hseq, hordinal], hthrough, by rw [hthread]⟩
  · rintro ⟨t, r, ht, htomb, hchat, hr, hordinal, hthrough, hrow⟩
    obtain ⟨o, ho, hkey⟩ := hm.order hr
    obtain ⟨hthread, hseq, -⟩ := (by simpa [SnapshotRow.key, OrderRow.key] using hkey :
      o.threadId = r.threadId ∧ o.sequence = r.seq ∧ o.snapshotId = r.snapshotId)
    have hord := hm.ordinal?_eq h hix ho
    rw [hthread, hseq, hordinal, Option.some.injEq] at hord
    obtain ⟨r', hr', hkey', t', ht', -, hjoined⟩ := hm.join h ho
    obtain rfl : r' = r := Table.eq_of_mem hr' hr (congrArg (·.2.2) (hkey'.trans hkey))
    rw [hthread, ht, Option.some.injEq] at ht'
    subst ht'
    refine ⟨o, ⟨ho, (hm.chats o ho t (by rw [hthread, ht])).trans hchat, (hm.bounds o ho).1,
      hord ▸ hthrough⟩, ?_⟩
    rw [hjoined, hrow, ← hord, hthread]

/-! ## 5.  Epochs -/

/-- A commit names a chat for a live thread that has none. -/
def SnapshotCodec.ClaimsChat (C : SnapshotCodec) (s : SnapshotDb) : SnapshotOp → Prop
  | .commit state completedNode nextNode _ _ =>
      ∃ p t, C.prepareBoundary state completedNode nextNode = .ok p ∧
        s.threads.find? p.threadId = some t ∧ t.tombstonedAt = none ∧ t.chatId = "" ∧
        p.fields.chatId ≠ ""
  | _ => False

/-- A commit changes the source of a live thread, which keeps its chat. -/
def SnapshotCodec.ChangesSource (C : SnapshotCodec) (s : SnapshotDb) : SnapshotOp → Prop
  | .commit state completedNode nextNode _ _ =>
      ∃ p t, C.prepareBoundary state completedNode nextNode = .ok p ∧
        s.threads.find? p.threadId = some t ∧ t.tombstonedAt = none ∧ t.chatId = p.fields.chatId ∧
        p.fields.source ≠ t.source
  | _ => False

/-- A commit that changes earlier rows of a chat without a new epoch. -/
def SnapshotCodec.Uncounted (C : SnapshotCodec) (s : SnapshotDb) (op : SnapshotOp) : Prop :=
  C.ClaimsChat s op ∨ C.ChangesSource s op

/-- From one database to a later one, for a chat: ordinals and the epoch only grow, a boundary that is kept
is kept as it was, and while the epoch is the same, so are the order rows there were and the sources of
their threads. -/
structure Advanced (c : String) (db db' : SnapshotDb) (ix ix' : ContextIndex) : Prop where
  last : ix.lastOrdinal ≤ ix'.lastOrdinal
  epoch : ix.epoch c ≤ ix'.epoch c
  boundaries : ∀ r ∈ db.snapshots.rows, ∀ r' ∈ db'.snapshots.rows, r.snapshotId = r'.snapshotId → r = r'
  same : ix'.epoch c = ix.epoch c → ∀ o : OrderRow, o.ordinal ≤ ix.lastOrdinal →
    (o ∈ ix'.order ∧ o.chatId = c ↔ o ∈ ix.order ∧ o.chatId = c)
  sources : ix'.epoch c = ix.epoch c → ∀ o ∈ ix.order, o.chatId = c → ∀ t t',
    db.threads.find? o.threadId = some t → db'.threads.find? o.threadId = some t' → t'.source = t.source

theorem Advanced.refl (c : String) (db : SnapshotDb) (ix : ContextIndex) : Advanced c db db ix ix where
  last := Nat.le_refl _
  epoch := Nat.le_refl _
  boundaries _ hr _ hr' hid := Table.eq_of_mem hr hr' hid
  same _ _ _ := Iff.rfl
  sources _ _ _ _ t t' ht ht' := by rw [Option.some.inj (ht'.symm.trans ht)]

/-- While the epoch of a chat stays, so do its rows through an ordinal given out. -/
theorem Advanced.contextRows {c : String} (hadv : Advanced c db db' ix ix') (hm : Mirrors db ix)
    (hm' : Mirrors db' ix') (h : Chained db) (h' : Chained db') (hix : db.index = some ix)
    (hix' : db'.index = some ix') (hepoch : ix'.epoch c = ix.epoch c) {n : Nat} (hn : n ≤ ix.lastOrdinal) :
    db'.contextRows c 0 n = db.contextRows c 0 n := by
  rw [hm.contextRows_eq hix, hm'.contextRows_eq hix']
  have horder : (ix'.order.filter fun o => decide (o.chatId = c ∧ 0 < o.ordinal ∧ o.ordinal ≤ n)) =
      ix.order.filter fun o => decide (o.chatId = c ∧ 0 < o.ordinal ∧ o.ordinal ≤ n) := by
    refine Keyset.Increasing.eq_of_mem_iff (hm'.increasing.filter _) (hm.increasing.filter _)
      fun o => ?_
    rw [List.mem_filter, List.mem_filter, decide_eq_true_eq]
    constructor
    · rintro ⟨ho, hchat, hpos, hle⟩
      exact ⟨((hadv.same hepoch o (by omega)).mp ⟨ho, hchat⟩).1, hchat, hpos, hle⟩
    · rintro ⟨ho, hchat, hpos, hle⟩
      exact ⟨((hadv.same hepoch o (by omega)).mpr ⟨ho, hchat⟩).1, hchat, hpos, hle⟩
  rw [horder]
  refine List.filterMap_congr fun o ho => ?_
  have ho' : o ∈ ix'.order := List.mem_of_mem_filter (horder.symm ▸ ho)
  obtain ⟨hmem, hfilter⟩ := List.mem_filter.mp ho
  obtain ⟨hchat, -⟩ := of_decide_eq_true hfilter
  obtain ⟨r, hr, hkey, t, ht, -, hjoin⟩ := hm.join h hmem
  obtain ⟨r', hr', hkey', t', ht', -, hjoin'⟩ := hm'.join h' ho'
  obtain rfl := hadv.boundaries r hr r' hr' ((congrArg (·.2.2) hkey).trans (congrArg (·.2.2) hkey').symm)
  rw [hjoin, hjoin', hadv.sources hepoch o hmem hchat t t' ht ht']

/-- The epochs after an owner change, for a thread that had a chat. -/
theorem epochIn_ownerEpochs (scope : List (String × Nat)) (old new c : String) :
    ContextIndex.epochIn (ContextIndex.ownerEpochs scope old new) c =
      ContextIndex.epochIn scope c + (if old ≠ "" ∧ c = old then 1 else 0) +
        if old ≠ "" ∧ new ≠ old ∧ c = new then 1 else 0 := by
  unfold ContextIndex.ownerEpochs
  by_cases hold : old = ""
  · simp [hold]
  · by_cases hnew : new = old
    · simp [hold, hnew, ContextIndex.epochIn_bump]
    · simp [hold, hnew, ContextIndex.epochIn_bump]

theorem Extended.advanced (hm : Mirrors db ix) (h : Chained db) (hix : db.index = some ix)
    {owner after : ThreadRow} {new : List SnapshotRow} (hext : Extended db db' owner after new)
    (hne : new ≠ []) (c : String)
    (hclaims : db.threads.find? owner.threadId = some owner → owner.chatId = "" →
      after.chatId = "")
    (hsource : db.threads.find? owner.threadId = some owner → owner.chatId = after.chatId →
      after.source = owner.source) :
    ∃ ix', db'.index = some ix' ∧ Mirrors db' ix' ∧ Advanced c db db' ix ix' := by
  obtain ⟨ix', hix', hm', horder, hlast, hscope⟩ := hm.extended h hix hext hne
  have hold : ∀ o ∈ ix.order, o.threadId = owner.threadId →
      db.threads.find? owner.threadId = some owner ∧ o.chatId = owner.chatId := by
    intro o ho hthread
    obtain ⟨r, hr, hkey⟩ := hm.row ho
    obtain ⟨t, ht, -⟩ := h.live_of_row hr
    rw [show r.threadId = owner.threadId from (congrArg Prod.fst hkey).trans hthread] at ht
    rcases hext.opened with ⟨hnone, -⟩ | hfind
    · rw [hnone] at ht
      exact absurd ht (by simp)
    · exact ⟨hfind, hm.chats o ho owner (by rw [hthread, hfind])⟩
  -- a chat that an owner change leaves or enters has its epoch counted
  have hmove : ix'.epoch c = ix.epoch c → ∀ o ∈ ix.order, o.threadId = owner.threadId →
      c = owner.chatId ∨ c = after.chatId → owner.chatId = after.chatId := by
    intro hepoch o ho hthread hc
    by_contra hchange
    rw [ContextIndex.epoch_eq, hscope, if_neg hchange, epochIn_ownerEpochs, ContextIndex.epoch_eq]
      at hepoch
    have hnamed : owner.chatId ≠ "" := fun hblank =>
      hchange (hblank.trans (hclaims (hold o ho hthread).1 hblank).symm)
    rcases hc with hc | hc
    · rw [if_pos ⟨hnamed, hc⟩] at hepoch
      omega
    · rw [if_pos (⟨hnamed, Ne.symm hchange, hc⟩ : _ ∧ _ ∧ _)] at hepoch
      omega
  refine ⟨ix', hix', hm', ⟨by omega, ?_, fun r hr r' hr' hid => ?_, fun hepoch o hord => ?_,
    fun hepoch o ho hchat t t' ht ht' => ?_⟩⟩
  · rw [ContextIndex.epoch_eq, ContextIndex.epoch_eq, hscope]
    split
    · exact Nat.le_refl _
    · rw [epochIn_ownerEpochs]
      omega
  · exact Table.eq_of_mem (t := db'.snapshots) (by rw [hext.rows]; exact List.mem_append_left _ hr) hr' hid
  · rw [horder]
    constructor
    · rintro ⟨ho, hchat⟩
      obtain ⟨o₀, ho₀, rfl⟩ := List.mem_map.mp ho
      rw [ContextIndex.ordinal_moved] at hord
      have hmem : o₀ ∈ ix.order := (List.mem_append.mp ho₀).resolve_right fun happ =>
        absurd (ContextIndex.mem_appended happ).1 (by omega)
      by_cases hthread : o₀.threadId = owner.threadId
      · have heq := hmove hepoch o₀ hmem hthread (.inr (by
          rw [← hchat, ContextIndex.moved, if_pos hthread]))
        have hkept : ContextIndex.moved owner.threadId after.chatId o₀ = o₀ := by
          rw [ContextIndex.moved, if_pos hthread, ← heq, ← (hold o₀ hmem hthread).2]
        rw [hkept] at hchat ⊢
        exact ⟨hmem, hchat⟩
      · rw [ContextIndex.moved, if_neg hthread] at hchat ⊢
        exact ⟨hmem, hchat⟩
    · rintro ⟨ho, hchat⟩
      refine ⟨List.mem_map.mpr ⟨o, List.mem_append_left _ ho, ?_⟩, hchat⟩
      by_cases hthread : o.threadId = owner.threadId
      · have heq := hmove hepoch o ho hthread (.inl (by rw [← hchat, (hold o ho hthread).2]))
        rw [ContextIndex.moved, if_pos hthread, ← heq, ← (hold o ho hthread).2]
      · rw [ContextIndex.moved, if_neg hthread]
  · rw [hext.threads] at ht'
    by_cases hthread : o.threadId = owner.threadId
    · obtain ⟨hfind, howner⟩ := hold o ho hthread
      rw [if_pos hthread] at ht'
      rw [hthread, hfind] at ht
      rw [← Option.some.inj ht', ← Option.some.inj ht]
      exact hsource hfind (hmove hepoch o ho hthread (.inl (hchat.symm.trans howner)))
    · rw [if_neg hthread, ht] at ht'
      rw [Option.some.inj ht']

/-- One operation that counts what it changes. -/
theorem StoreStep.advanced {op : SnapshotOp} {r : SnapshotReply} (hstep : StoreStep C db op r db')
    (hcounted : ¬ C.Uncounted db op) (hm : Mirrors db ix) (h : Chained db)
    (hix : db.index = some ix) (c : String) :
    ∃ ix', db'.index = some ix' ∧ Mirrors db' ix' ∧ Advanced c db db' ix ix' := by
  have hunchanged : ∃ ix', db.index = some ix' ∧ Mirrors db ix' ∧ Advanced c db db ix ix' :=
    ⟨ix, hix, hm, Advanced.refl c db ix⟩
  cases hstep with
  | raised => exact hunchanged
  | deletedBlank => exact hunchanged
  | copiedSelf => exact hunchanged
  | initialized =>
      have hsame : db.initIndex = db := by
        unfold SnapshotDb.initIndex
        rw [hix]
      rw [hsame]
      exact hunchanged
  | @committed state completedNode nextNode expected u p owner _ hp hid hfence hext =>
      refine hext.advanced hm h hix (by simp) c (fun hfind hblank => ?_) fun hfind hchat => ?_
      · by_contra hnamed
        exact hcounted (.inl ⟨p, owner, hp, by rw [← hid, hfind], hext.live.1, hblank, hnamed⟩)
      · by_contra hchanged
        exact hcounted (.inr ⟨p, owner, hp, by rw [← hid, hfind], hext.live.1, hchat, hchanged⟩)
  | copied _ hsource htarget hlen _ hext =>
      refine hext.advanced hm h hix
        (List.ne_nil_of_length_pos (by rw [hlen]; exact h.copySource_pos hsource)) c (fun hfind => ?_)
        fun hfind => ?_
      · exact absurd (htarget.symm.trans hfind) (by simp)
      · exact absurd (htarget.symm.trans hfind) (by simp)
  | copiedThrough hpos _ htarget hlen _ _ _ hext =>
      refine hext.advanced hm h hix (List.ne_nil_of_length_pos (by rw [hlen]; exact hpos.2)) c
        (fun hfind => ?_) fun hfind => ?_
      · exact absurd (htarget.symm.trans hfind) (by simp)
      · exact absurd (htarget.symm.trans hfind) (by simp)
  | @deleted thread now _ _ hdel =>
      have hsub : ∀ r' ∈ db'.snapshots.rows, r' ∈ db.snapshots.rows := by
        intro r' hr'
        rw [hdel.rows] at hr'
        split at hr'
        · exact List.mem_of_mem_filter hr'
        · exact hr'
      have hrows : ∀ r ∈ db.snapshots.rows, ∀ r' ∈ db'.snapshots.rows,
          r.snapshotId = r'.snapshotId → r = r' :=
        fun r hr r' hr' hid => Table.eq_of_mem hr (hsub r' hr') hid
      cases hold : db.threads.find? (strip thread) with
      | some t =>
          rw [hold] at hdel
          obtain ⟨ix', hix', hm', horder, hlast, hepoch⟩ := hm.deleted hix (by simp) hdel
          -- the deleted boundaries are counted for their chat
          have hother : ix'.epoch c = ix.epoch c → ∀ o ∈ ix.order, o.chatId = c →
              o.threadId ≠ strip thread := fun heq o ho hchat hthread => by
            have hlt := (hepoch c).2 ⟨o, ho, hchat, hthread⟩
            omega
          refine ⟨ix', hix', hm', ⟨by omega, (hepoch c).1, hrows, fun heq o _ => ?_,
            fun heq o ho hchat t t' ht ht' => ?_⟩⟩
          · rw [horder, List.mem_filter, decide_eq_true_eq]
            constructor
            · rintro ⟨⟨ho, -⟩, hchat⟩
              exact ⟨ho, hchat⟩
            · rintro ⟨ho, hchat⟩
              exact ⟨⟨ho, hother heq o ho hchat⟩, hchat⟩
          · rw [hdel.threads _ (hother heq o ho hchat), ht] at ht'
            rw [Option.some.inj ht']
      | none =>
          rw [hold] at hdel
          have hindex : db'.index = some ix := hdel.index.trans hix
          have hother : ∀ o ∈ ix.order, o.threadId ≠ strip thread := by
            intro o ho heq
            obtain ⟨r, hr, hkey⟩ := hm.row ho
            obtain ⟨t₀, ht₀, -⟩ := h.live_of_row hr
            rw [show r.threadId = o.threadId from congrArg Prod.fst hkey, heq, hold] at ht₀
            exact absurd ht₀ (by simp)
          refine ⟨ix, hindex, ⟨?_, hm.increasing, hm.bounds, fun o ho t ht => ?_⟩,
            ⟨Nat.le_refl _, Nat.le_refl _, hrows, fun _ _ _ => Iff.rfl, fun _ o ho _ t t' ht ht' => ?_⟩⟩
          · rw [hdel.rows]
            exact hm.keys
          · rw [hdel.threads _ (hother o ho)] at ht
            exact hm.chats o ho t ht
          · rw [hdel.threads _ (hother o ho), ht] at ht'
            rw [Option.some.inj ht']

theorem ContextIndex.through_le (hm : Mirrors db ix) (chat : String) :
    ix.through chat ≤ ix.lastOrdinal := by
  have hfold : ∀ ns : List Nat, (∀ n ∈ ns, n ≤ ix.lastOrdinal) → ns.foldr max 0 ≤ ix.lastOrdinal := by
    intro ns hns
    induction ns with
    | nil => exact Nat.zero_le _
    | cons n ns ih =>
        exact Nat.max_le.mpr ⟨hns n List.mem_cons_self, ih fun n hn => hns n (List.mem_cons_of_mem _ hn)⟩
  refine hfold _ fun n hn => ?_
  obtain ⟨o, ho, rfl⟩ := List.mem_map.mp hn
  exact (hm.bounds o (List.mem_of_mem_filter ho)).2

/-- **The commit cursor of a chat.**  In a run in which no commit names a chat for a thread
that has none, and none changes the source of a thread that keeps its chat: once the index
is there, every boundary has an ordinal, and pages enumerate the live boundaries of a chat,
each once, in increasing ordinal; and as long as the epoch of the chat is the same, so are
its rows through the ordinal that was read. -/
theorem context_cursor_stable {h : List (SnapshotOp × SnapshotReply)} {s : SnapshotDb}
    (hrun : C.snapshotStore.RunWhere (fun _ s op => ¬ C.Uncounted s op) h s)
    (hindex : s.index.isSome) (chat : String) :
    (∀ r ∈ s.snapshots.rows, (s.ordinal? r.threadId r.seq).isSome) ∧
    (∀ through limit, ∃ enough, ∀ fuel, enough ≤ fuel →
      (s.contextPages chat through limit fuel 0).Pairwise
          (fun row row' => row.ordinal < row'.ordinal) ∧
        ∀ row, row ∈ s.contextPages chat through limit fuel 0 ↔
          ∃ t r, s.threads.find? r.threadId = some t ∧ t.tombstonedAt = none ∧ t.chatId = chat ∧
            r ∈ s.snapshots.rows ∧ s.ordinal? r.threadId r.seq = some row.ordinal ∧
            row.ordinal ≤ through ∧
            row = ⟨row.ordinal, r.threadId, r.seq, r.snapshotId, r.parentSnapshotId, r.runId,
              t.source, r.completedNode, r.nextNode⟩) ∧
    ∀ later s', C.snapshotStore.Extends (fun _ s op => ¬ C.Uncounted s op) h s later s' →
      (s'.contextBoundary chat).2 = (s.contextBoundary chat).2 →
      s'.contextRows chat 0 (s.contextBoundary chat).1 =
        s.contextRows chat 0 (s.contextBoundary chat).1 := by
  obtain ⟨ix, hix⟩ := Option.isSome_iff_exists.mp hindex
  have hchained := chained_of_run hrun.run
  have hm := mirrors_of_run hrun.run hix
  refine ⟨fun r hr => ?_, fun through limit => ?_, fun later s' hext => ?_⟩
  · obtain ⟨o, ho, hkey⟩ := hm.order hr
    have hord := hm.ordinal?_eq hchained hix ho
    rw [show o.threadId = r.threadId from congrArg Prod.fst hkey,
      show o.sequence = r.seq from congrArg (·.2.1) hkey] at hord
    rw [hord]
    rfl
  · exact ⟨(s.contextRows chat 0 through).length + 1, fun fuel hfuel =>
      hm.pages hchained hix chat through limit fuel (by omega)⟩
  · -- the invariant of the extension, for every ordinal that was given out when it started
    have hinv := hext.invariant (I := fun _ s₁ => ∃ ix₁, s₁.index = some ix₁ ∧ Mirrors s₁ ix₁ ∧
        ix.lastOrdinal ≤ ix₁.lastOrdinal ∧ ix.epoch chat ≤ ix₁.epoch chat ∧
        (ix₁.epoch chat = ix.epoch chat →
          ∀ n ≤ ix.lastOrdinal, s₁.contextRows chat 0 n = s.contextRows chat 0 n))
      ⟨ix, hix, hm, Nat.le_refl _, Nat.le_refl _, fun _ _ _ => rfl⟩ (by
        rintro later s₁ op r s₂ hext₁ ⟨ix₁, hix₁, hm₁, hlast₁, hepoch₁, hrows₁⟩ hcond hs
        have hchained₁ := chained_of_run (hrun.extend hext₁).run
        have hstep := stepStore_eq hs
        obtain ⟨ix₂, hix₂, hm₂, hadv⟩ := hstep.advanced hcond hm₁ hchained₁ hix₁ chat
        have hlast := hadv.last
        have hepoch := hadv.epoch
        refine ⟨ix₂, hix₂, hm₂, by omega, by omega, fun heq n hn => ?_⟩
        rw [hadv.contextRows hm₁ hm₂ hchained₁ (hstep.chained hchained₁) hix₁ hix₂ (by omega) (by omega)]
        exact hrows₁ (by omega) n hn)
    obtain ⟨ix', hix', -, -, -, hsame⟩ := hinv
    rw [SnapshotDb.contextBoundary, SnapshotDb.contextBoundary, hix, hix']
    exact fun hepoch => hsame hepoch _ (ContextIndex.through_le hm chat)

/-- The first boundary of a chat. -/
def firstBoundary : SnapshotReply × SnapshotDb :=
  SnapshotCodec.plain.snapshotStore.step (modelStep "t" "r" "c" none 1) SnapshotDb.empty

/-- One boundary of a chat, with the index. -/
def oneBoundary : SnapshotReply × SnapshotDb :=
  SnapshotCodec.plain.snapshotStore.step .initIndex firstBoundary.2

/-- The deletion of another thread. -/
def otherDeleted : SnapshotReply × SnapshotDb :=
  SnapshotCodec.plain.snapshotStore.step (.delete "u" 0) oneBoundary.2

theorem context_cursor_stable_one :
    oneBoundary.2.contextBoundary "c" = (1, 0) ∧ (oneBoundary.2.contextRows "c" 0 1).length = 1 ∧
      otherDeleted.2.contextRows "c" 0 (oneBoundary.2.contextBoundary "c").1 =
        oneBoundary.2.contextRows "c" 0 (oneBoundary.2.contextBoundary "c").1 := by
  have hfirst : SnapshotCodec.plain.snapshotStore.RunWhere
      (fun _ s op => ¬ SnapshotCodec.plain.Uncounted s op)
      [(modelStep "t" "r" "c" none 1, firstBoundary.1)] firstBoundary.2 := by
    refine .step .start ?_ (Prod.mk.eta.symm : firstBoundary = _)
    rintro (⟨p, t, -, ht, -⟩ | ⟨p, t, -, ht, -⟩)
    · exact absurd ht (by simp [SnapshotCodec.snapshotStore, SnapshotDb.empty])
    · exact absurd ht (by simp [SnapshotCodec.snapshotStore, SnapshotDb.empty])
  obtain ⟨hindex, hbound, hlength, hepoch⟩ : oneBoundary.2.index.isSome ∧
      oneBoundary.2.contextBoundary "c" = (1, 0) ∧ (oneBoundary.2.contextRows "c" 0 1).length = 1 ∧
      (otherDeleted.2.contextBoundary "c").2 = (oneBoundary.2.contextBoundary "c").2 := by
    decide +kernel
  have hall := context_cursor_stable
    (.step hfirst (fun hu => Or.elim hu id id) (Prod.mk.eta.symm : oneBoundary = _)) hindex "c"
  exact ⟨hbound, hlength,
    hall.2.2 _ _ (.step .refl (fun hu => Or.elim hu id id) (Prod.mk.eta.symm : otherDeleted = _)) hepoch⟩

/-- Two threads, one of them without a chat, and the index. -/
def chatlessThread : List (SnapshotOp × SnapshotReply) × SnapshotDb :=
  SnapshotCodec.plain.snapshotStore.exec ([], SnapshotDb.empty)
    [modelStep "t" "r" "" none 1, modelStep "u" "r" "c" none 2, .initIndex]

/-- The thread without a chat gets one. -/
def chatClaimed : List (SnapshotOp × SnapshotReply) × SnapshotDb :=
  SnapshotCodec.plain.snapshotStore.exec ([], chatlessThread.2) [modelStep "t" "r" "c" (some 1) 3]

/-- A chat has an earlier boundary more, at the same epoch. -/
theorem context_cursor_moves :
    ¬ ∀ h s, SnapshotCodec.plain.snapshotStore.Run h s → s.index.isSome → ∀ chat later s',
      SnapshotCodec.plain.snapshotStore.Extends (fun _ _ _ => True) h s later s' →
      (s'.contextBoundary chat).2 = (s.contextBoundary chat).2 →
      s'.contextRows chat 0 (s.contextBoundary chat).1 =
        s.contextRows chat 0 (s.contextBoundary chat).1 := by
  intro hall
  obtain ⟨hindex, hepoch, hrows⟩ : chatlessThread.2.index.isSome ∧
      (chatClaimed.2.contextBoundary "c").2 = (chatlessThread.2.contextBoundary "c").2 ∧
      chatClaimed.2.contextRows "c" 0 (chatlessThread.2.contextBoundary "c").1 ≠
        chatlessThread.2.contextRows "c" 0 (chatlessThread.2.contextBoundary "c").1 := by
    decide +kernel
  exact hrows (hall chatlessThread.1 chatlessThread.2 (Machine.Run.exec .start _) hindex "c"
    chatClaimed.1 chatClaimed.2 (Machine.Extends.exec .refl _ fun _ _ _ _ => trivial) hepoch)

end AgentEngine
end VariantOne
