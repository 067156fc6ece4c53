import VariantOne.AgentEngine.SnapshotStore
import VariantOne.Lib.Linked

/-!
# What an operation does to the snapshot store

An operation that returns has extended one thread (`Extended`), deleted one (`Deleted`) or
changed nothing but the index.  The two copies and the commit extend a thread by a linked
log, whatever they copied it from; this is read off their transactions once, and every
invariant of the store follows from it.

`stepStore_eq` is what later modules use: a step that returns gives one of these three, and a step that
raises gives the same store.  For the copies the lemma also says which boundary each new row was copied
from (`CopyOf`, `PrefixCopyOf`), which is what loading needs.
-/

namespace VariantOne
namespace AgentEngine

/-! ## 1.  Guards -/

theorem require_eq_ok {c : Bool} {e : SnapshotError} {u : Unit} :
    require c e = .ok u ↔ c = true := by
  unfold require
  cases c <;> simp

/-- A check that passes. -/
theorem require_bind_of_true {α : Type} {c : Bool} {e : SnapshotError}
    {f : Unit → Except SnapshotError α} (h : c = true) : (require c e >>= f) = f () := by
  unfold require
  rw [if_pos h]
  rfl

theorem except_ok_bind {ε α β : Type} {a : α} {f : α → Except ε β} :
    (Except.ok a >>= f) = f a := rfl

/-- A check followed by the rest. -/
theorem require_bind_eq_ok {α : Type} {c : Bool} {e : SnapshotError}
    {f : Unit → Except SnapshotError α} {a : α} :
    (require c e >>= f) = .ok a ↔ c = true ∧ f () = .ok a := by
  rw [except_bind_eq_ok]
  constructor
  · rintro ⟨u, hc, hf⟩
    exact ⟨require_eq_ok.mp hc, hf⟩
  · rintro ⟨hc, hf⟩
    exact ⟨(), require_eq_ok.mpr hc, hf⟩

/-! ## 2.  Insertions -/

namespace SnapshotDb

variable {db db' : SnapshotDb}

/-- Rows were inserted, under a thread row that owns them. -/
structure Inserted (db db' : SnapshotDb) (owner : ThreadRow) (new : List SnapshotRow) : Prop where
  threads : db'.threads = db.threads
  rows : db'.snapshots.rows = db.snapshots.rows ++ new
  owned : ∀ r ∈ new, r.threadId = owner.threadId
  index : db'.index = db.index.map fun ix => new.foldl (fun ix r => ix.append owner.chatId r) ix

theorem Inserted.refl (db : SnapshotDb) (owner : ThreadRow) : Inserted db db owner [] :=
  ⟨rfl, by simp, by simp, by simp⟩

theorem Inserted.trans {db₁ db₂ db₃ : SnapshotDb} {owner : ThreadRow} {xs ys : List SnapshotRow}
    (h : Inserted db₁ db₂ owner xs) (h' : Inserted db₂ db₃ owner ys) :
    Inserted db₁ db₃ owner (xs ++ ys) where
  threads := h'.threads.trans h.threads
  rows := by rw [h'.rows, h.rows, List.append_assoc]
  owned := by
    intro r hr
    rcases List.mem_append.mp hr with hr | hr
    · exact h.owned r hr
    · exact h'.owned r hr
  index := by
    rw [h'.index, h.index, Option.map_map]
    congr 1
    funext ix
    rw [Function.comp_apply, List.foldl_append]

theorem rowsOf_append {new : List SnapshotRow} {k : String}
    (hrows : db'.snapshots.rows = db.snapshots.rows ++ new) (hnew : ∀ r ∈ new, r.threadId = k)
    (j : String) : db'.rowsOf j = db.rowsOf j ++ if j = k then new else [] := by
  unfold rowsOf
  rw [hrows, List.filter_append]
  congr 1
  by_cases hj : j = k
  · rw [if_pos hj, List.filter_eq_self]
    intro r hr
    simpa [hj] using hnew r hr
  · rw [if_neg hj, List.filter_eq_nil_iff]
    intro r hr
    rw [hnew r hr]
    simpa using Ne.symm hj

end SnapshotDb

open SnapshotDb

variable {C : SnapshotCodec} {db db' : SnapshotDb}

theorem insertThread_eq_ok {t : ThreadRow} {u : Unit} (h : (insertThread t).run db = .ok (u, db')) :
    db.threads.find? t.threadId = none ∧ db'.snapshots = db.snapshots ∧ db'.index = db.index ∧
      ∀ j, db'.threads.find? j = if t.threadId = j then some t else db.threads.find? j := by
  unfold insertThread at h
  rw [Txn.run_read_bind] at h
  split at h
  · exact absurd h (by simp)
  · rename_i threads hins
    rw [Txn.run_modify, Except.ok.injEq, Prod.mk.injEq] at h
    obtain ⟨-, rfl⟩ := h
    obtain ⟨hnone, hrows⟩ := Table.insert?_eq_some hins
    exact ⟨hnone, rfl, rfl, Table.find?_of_rows_append hrows⟩

/-- An insertion under a thread that is there. -/
theorem insertSnapshot_eq_ok {r : SnapshotRow} {t : ThreadRow} {u : Unit}
    (ht : db.threads.find? r.threadId = some t) (h : (insertSnapshot r).run db = .ok (u, db')) :
    Inserted db db' t [r] ∧ db.snapshots.find? r.snapshotId = none := by
  unfold insertSnapshot at h
  rw [Txn.run_read_bind, Txn.run_ensure_bind_eq_ok] at h
  obtain ⟨-, h⟩ := h
  split at h
  · exact absurd h (by simp)
  · rename_i snapshots hins
    rw [Txn.run_lift_bind_eq_ok] at h
    obtain ⟨index, hindex, h⟩ := h
    rw [Txn.run_modify, Except.ok.injEq, Prod.mk.injEq] at h
    obtain ⟨-, rfl⟩ := h
    obtain ⟨hnone, hrows⟩ := Table.insert?_eq_some hins
    refine ⟨⟨rfl, hrows, by simpa using (Table.key_of_find? ht).symm, ?_⟩, hnone⟩
    show index = _
    cases hix : db.index with
    | none =>
        rw [hix] at hindex
        exact (Except.ok.inj hindex).symm
    | some ix =>
        rw [hix, indexInsert] at hindex
        unfold ContextIndex.afterInsert at hindex
        rw [ht] at hindex
        dsimp only at hindex
        split at hindex
        · exact absurd hindex (by simp [Except.map])
        · exact (Except.ok.inj hindex).symm

/-! ## 3.  Copies -/

/-- Boundaries as a linked log. -/
abbrev BoundaryLog : Nat → String → List SnapshotRow → Prop :=
  Linked.Log (fun r : SnapshotRow => r.seq) (fun r => r.snapshotId) fun r => r.parentSnapshotId

/-- The id of the newest boundary of a log. -/
abbrev newest : String → List SnapshotRow → String := Linked.tip fun r : SnapshotRow => r.snapshotId

theorem decodeState_eq_ok {blob state : Doc} {codec : String}
    (h : C.decodeState blob codec = .ok state) : state = blob := by
  unfold SnapshotCodec.decodeState at h
  obtain ⟨-, h⟩ := require_bind_eq_ok.mp h
  obtain ⟨-, h⟩ := require_bind_eq_ok.mp h
  exact (Except.ok.inj h).symm

theorem verifiedState_eq_ok {r : SnapshotRow} {n : Nat} {parent : String} {state : Doc}
    (h : C.verifiedState r n parent = .ok state) :
    r.seq = n ∧ r.parentSnapshotId = parent ∧ state = r.stateBlob := by
  unfold SnapshotCodec.verifiedState at h
  obtain ⟨hseq, h⟩ := require_bind_eq_ok.mp h
  obtain ⟨hparent, h⟩ := require_bind_eq_ok.mp h
  obtain ⟨-, h⟩ := require_bind_eq_ok.mp h
  obtain ⟨state', hdecode, h⟩ := except_bind_eq_ok.mp h
  obtain ⟨-, h⟩ := require_bind_eq_ok.mp h
  obtain rfl : state' = state := Except.ok.inj h
  exact ⟨by simpa using hseq, by simpa using hparent, decodeState_eq_ok hdecode⟩

/-- A boundary of a copied thread, and what it was made of. -/
structure SnapshotCodec.CopyOf (C : SnapshotCodec) (source target : String) (r r' : SnapshotRow) :
    Prop where
  named : ∃ u, r'.snapshotId = newSnapshotId u
  seq : r'.seq = r.seq
  runId : r'.runId = r.runId
  nodes : r'.completedNode = r.completedNode ∧ r'.nextNode = r.nextNode
  codec : r'.codecVersion = codecVersion ∧ r'.privacyRevision = privacyRevision
  owned : C.stateThreadId r.stateBlob = source
  encoded : ∃ e, C.encodeSnapshot (entriesToPy (Dict.set r.stateBlob "thread_id" (.str target)))
    r.completedNode r.nextNode = .ok e ∧ r'.stateBlob = e.stateBlob ∧
      r'.payloadSha256 = e.payloadSha256

/-- The copy made last stands for the boundary copied last. -/
def CopyCursor.Maps (c : CopyCursor) : Prop := Dict.get? c.idMap c.lastSourceId = some c.headId

theorem CopyCursor.maps_start : CopyCursor.start.Maps := rfl

/-- One step of the copy of a thread. -/
theorem copyRow_eq_ok {source target : String} {r : SnapshotRow} {u : BitVec 128}
    {c c' : CopyCursor} {t : ThreadRow} (ht : db.threads.find? target = some t) (hc : c.Maps)
    (h : (C.copyRow source target r u c).run db = .ok (c', db')) :
    ∃ r', Inserted db db' t [r'] ∧ C.CopyOf source target r r' ∧ r'.seq = c.expectedSeq ∧
      r'.parentSnapshotId = c.headId ∧ c'.headId = r'.snapshotId ∧
        c'.expectedSeq = c.expectedSeq + 1 ∧ c'.lastSourceId = r.snapshotId ∧ c'.Maps := by
  unfold SnapshotCodec.copyRow at h
  rw [Txn.run_lift_bind_eq_ok] at h
  obtain ⟨e, he, h⟩ := h
  unfold SnapshotCodec.copiedState at he
  obtain ⟨state, hstate, he⟩ := except_bind_eq_ok.mp he
  obtain ⟨u', howned, he⟩ := except_bind_eq_ok.mp he
  obtain ⟨hseq, hparent, rfl⟩ := verifiedState_eq_ok hstate
  have hthread : C.stateThreadId r.stateBlob = source := by simpa using require_eq_ok.mp howned
  rw [hparent, show Dict.get? c.idMap c.lastSourceId = some c.headId from hc] at h
  dsimp only at h
  obtain ⟨u'', db'', hins, h⟩ := Txn.run_bind_eq_ok.mp h
  obtain ⟨rfl, rfl⟩ := Txn.run_pure_eq_ok.mp h
  obtain ⟨hinserted, -⟩ := insertSnapshot_eq_ok (t := t) ht hins
  refine ⟨_, hinserted, ⟨⟨u, rfl⟩, rfl, rfl, ⟨rfl, rfl⟩, ⟨rfl, rfl⟩, hthread, e, he, rfl, rfl⟩, hseq,
    rfl, rfl, rfl, rfl, ?_⟩
  exact Dict.get?_set_self _ _ _

/-- The boundaries of a copied thread are a linked log of its own. -/
theorem copyRows_eq_ok {source target : String} {ids : Nat → BitVec 128} {t : ThreadRow}
    (rs : List SnapshotRow) {c c' : CopyCursor} {db db' : SnapshotDb}
    (ht : db.threads.find? target = some t) (hc : c.Maps)
    (h : (C.copyRows source target ids rs c).run db = .ok (c', db')) :
    ∃ new, Inserted db db' t new ∧ List.Forall₂ (C.CopyOf source target) rs new ∧
      BoundaryLog c.expectedSeq c.headId new ∧ c'.headId = newest c.headId new ∧
        c'.expectedSeq = c.expectedSeq + new.length := by
  induction rs generalizing c db with
  | nil =>
      obtain ⟨rfl, rfl⟩ := Txn.run_pure_eq_ok.mp h
      exact ⟨[], Inserted.refl _ _, .nil, trivial, rfl, rfl⟩
  | cons r rs ih =>
      obtain ⟨c₁, db₁, hrow, hrest⟩ := Txn.run_bind_eq_ok.mp h
      obtain ⟨r', hinserted, hcopy, hseq, hparent, hhead, hnext, -, hmaps⟩ := copyRow_eq_ok ht hc hrow
      have ht₁ : db₁.threads.find? target = some t := by rw [hinserted.threads, ht]
      obtain ⟨new, hnew, hcopies, hlog, htip, hlen⟩ := ih ht₁ hmaps hrest
      refine ⟨r' :: new, hinserted.trans hnew, .cons hcopy hcopies, ⟨hseq, hparent, ?_⟩, ?_, ?_⟩
      · show BoundaryLog (c.expectedSeq + 1) r'.snapshotId new
        rwa [← hnext, ← hhead]
      · rw [htip, hhead]
        rfl
      · rw [hlen, hnext, List.length_cons]
        omega

/-- A boundary of a copied prefix, and what it was prepared from. -/
structure SnapshotCodec.PrefixCopyOf (C : SnapshotCodec) (source sourceRun : String)
    (target : CopyTarget) (r : SnapshotRow) (p : PreparedCopy) : Prop where
  nodes : p.completedNode = r.completedNode ∧ p.nextNode = r.nextNode
  owned : C.stateThreadId r.stateBlob = source
  encoded : ∃ e, C.encodeSnapshot (entriesToPy (C.retargetedState target sourceRun r.stateBlob))
    r.completedNode r.nextNode = .ok e ∧ p.stateBlob = e.stateBlob ∧
      p.payloadSha256 = e.payloadSha256 ∧ p.fields = C.stateFields e.normalized

/-- A prepared prefix as a linked log. -/
abbrev PreparedLog : Nat → String → List PreparedCopy → Prop :=
  Linked.Log (fun p : PreparedCopy => p.sequence) (fun p => p.sourceSnapshotId)
    fun p => p.sourceParentId

theorem prepareCopy_eq_ok {source sourceRun : String} {target : CopyTarget} {r : SnapshotRow}
    {n : Nat} {parent : String} {p : PreparedCopy}
    (h : C.prepareCopy source sourceRun target r n parent = .ok p) :
    C.PrefixCopyOf source sourceRun target r p ∧ p.sequence = n ∧ p.sourceParentId = parent ∧
      p.sourceSnapshotId = r.snapshotId := by
  unfold SnapshotCodec.prepareCopy at h
  obtain ⟨state, hstate, h⟩ := except_bind_eq_ok.mp h
  obtain ⟨hseq, hparent, rfl⟩ := verifiedState_eq_ok hstate
  obtain ⟨u, -, h⟩ := except_bind_eq_ok.mp h
  obtain ⟨u', howned, h⟩ := except_bind_eq_ok.mp h
  obtain ⟨e, he, h⟩ := except_bind_eq_ok.mp h
  have hthread : C.stateThreadId r.stateBlob = source := by simpa using require_eq_ok.mp howned
  obtain rfl := Except.ok.inj h
  exact ⟨⟨⟨rfl, rfl⟩, hthread, e, he, rfl, rfl, rfl⟩, hseq, hparent, rfl⟩

theorem prepareCopies_eq_ok {source sourceRun : String} {target : CopyTarget} (rs : List SnapshotRow)
    {n : Nat} {parent : String} {ps : List PreparedCopy}
    (h : C.prepareCopies source sourceRun target rs n parent = .ok ps) :
    List.Forall₂ (C.PrefixCopyOf source sourceRun target) rs ps ∧ PreparedLog n parent ps := by
  induction rs generalizing n parent ps with
  | nil =>
      obtain rfl : [] = ps := Except.ok.inj h
      exact ⟨.nil, trivial⟩
  | cons r rs ih =>
      rw [SnapshotCodec.prepareCopies] at h
      obtain ⟨p, hp, h⟩ := except_bind_eq_ok.mp h
      obtain ⟨ps', hps, h⟩ := except_bind_eq_ok.mp h
      obtain rfl : p :: ps' = ps := Except.ok.inj h
      obtain ⟨hcopy, hseq, hparent, hid⟩ := prepareCopy_eq_ok hp
      obtain ⟨hcopies, hlog⟩ := ih hps
      rw [← hid] at hlog
      exact ⟨.cons hcopy hcopies, hseq, hparent, hlog⟩

/-- A row of a copied prefix. -/
structure PreparedCopy.Row (target : String) (p : PreparedCopy) (r' : SnapshotRow) : Prop where
  named : ∃ u, r'.snapshotId = newSnapshotId u
  seq : r'.seq = p.sequence
  runId : r'.runId = p.fields.runId
  nodes : r'.completedNode = p.completedNode ∧ r'.nextNode = p.nextNode
  codec : r'.codecVersion = codecVersion ∧ r'.privacyRevision = privacyRevision
  stored : r'.stateBlob = p.stateBlob ∧ r'.payloadSha256 = p.payloadSha256

/-- The rows of a copied prefix are a linked log of their own. -/
theorem insertCopies_eq_ok {target : String} {ids : Nat → BitVec 128} {t : ThreadRow}
    (ps : List PreparedCopy) {n : Nat} {last head head' : String} {idMap : List (String × String)}
    {db db' : SnapshotDb} (ht : db.threads.find? target = some t)
    (hmap : Dict.get? idMap last = some head) (hlog : PreparedLog n last ps)
    (h : (insertCopies target ids ps idMap head).run db = .ok (head', db')) :
    ∃ new, Inserted db db' t new ∧ List.Forall₂ (PreparedCopy.Row target) ps new ∧
      BoundaryLog n head new ∧ head' = newest head new := by
  induction ps generalizing n last head idMap db with
  | nil =>
      obtain ⟨rfl, rfl⟩ := Txn.run_pure_eq_ok.mp h
      exact ⟨[], Inserted.refl _ _, .nil, trivial, rfl⟩
  | cons p ps ih =>
      obtain ⟨hseq, hparent, hrest⟩ := hlog
      replace hparent : p.sourceParentId = last := hparent
      rw [insertCopies] at h
      obtain ⟨idMap₁, db₁, hrow, h⟩ := Txn.run_bind_eq_ok.mp h
      unfold insertCopy at hrow
      rw [hparent, hmap] at hrow
      dsimp only at hrow
      obtain ⟨u, db₂, hins, hrow⟩ := Txn.run_bind_eq_ok.mp hrow
      obtain ⟨rfl, rfl⟩ := Txn.run_pure_eq_ok.mp hrow
      obtain ⟨hinserted, -⟩ := insertSnapshot_eq_ok (t := t) ht hins
      have ht₁ : db₂.threads.find? target = some t := by rw [hinserted.threads, ht]
      obtain ⟨new, hnew, hrows, hlog', htip⟩ := ih ht₁ (Dict.get?_set_self _ _ _) hrest h
      exact ⟨_, hinserted.trans hnew, .cons ⟨⟨_, rfl⟩, rfl, rfl, ⟨rfl, rfl⟩, ⟨rfl, rfl⟩, rfl, rfl⟩
        hrows, ⟨hseq, rfl, hlog'⟩, htip⟩

/-! ## 4.  The operations -/

/-- An update by key reaches the row of the key. -/
theorem find?_updateKey {ρ κ : Type} [DecidableEq κ] {key : ρ → κ} (t : Table ρ κ key) (k : κ)
    (f : ρ → ρ) (hf : ∀ r, key (f r) = key r) (j : κ) :
    (t.updateWhere (fun r => decide (key r = k)) f hf).find? j =
      if j = k then (t.find? k).map f else t.find? j := by
  rw [Table.find?_updateWhere]
  cases hj : t.find? j with
  | none =>
      by_cases hjk : j = k
      · rw [if_pos hjk, ← hjk, hj]
        rfl
      · rw [if_neg hjk]
        rfl
  | some r =>
      have hkey : key r = j := Table.key_of_find? hj
      by_cases hjk : j = k
      · rw [if_pos hjk, ← hjk, hj, Option.map_some, hkey, if_pos (by simp)]
        rfl
      · rw [if_neg hjk, Option.map_some, hkey, if_neg (by simpa using hjk)]

theorem find?_setHead (thread headId : String) (n : Nat) (db : SnapshotDb) (j : String) :
    (setHead thread n headId db).threads.find? j = if j = thread then
      (db.threads.find? thread).map fun t => { t with headSeq := some n, headSnapshotId := some headId }
    else db.threads.find? j :=
  find?_updateKey db.threads thread
    (fun t => { t with headSeq := some n, headSnapshotId := some headId }) (fun _ => rfl) j

theorem find?_updateOwner (thread : String) (f : ThreadRow → ThreadRow)
    (hf : ∀ t, (f t).threadId = t.threadId) (db : SnapshotDb) (j : String) :
    (updateOwner thread f hf db).threads.find? j =
      if j = thread then (db.threads.find? thread).map f else db.threads.find? j :=
  find?_updateKey db.threads thread f hf j

/-- How many boundaries a head stands for. -/
def ThreadRow.count (t : ThreadRow) : Nat := t.headSeq.elim 0 id

/-- The boundary the next one has to name. -/
def ThreadRow.headId (t : ThreadRow) : String := t.headSnapshotId.getD ""

/-- A thread went from one row to another and got boundaries: it is new, or it was found as
it was. -/
structure Extended (db db' : SnapshotDb) (owner after : ThreadRow) (new : List SnapshotRow) :
    Prop where
  threads : ∀ j, db'.threads.find? j =
    if j = owner.threadId then some after else db.threads.find? j
  rows : db'.snapshots.rows = db.snapshots.rows ++ new
  owned : ∀ r ∈ new, r.threadId = owner.threadId
  index : db'.index = db.index.map fun ix =>
    (new.foldl (fun ix r => ix.append owner.chatId r) ix).ownerChange owner after
  opened : db.threads.find? owner.threadId = none ∧ owner.headSeq = none ∧
      owner.headSnapshotId = none ∨
    db.threads.find? owner.threadId = some owner
  live : owner.tombstonedAt = none ∧ after.tombstonedAt = none
  log : BoundaryLog (owner.count + 1) owner.headId new
  head : after.headSeq = some (owner.count + new.length) ∧
    after.headSnapshotId = some (newest owner.headId new)

theorem Extended.threadId {owner after : ThreadRow} {new : List SnapshotRow}
    (h : Extended db db' owner after new) : after.threadId = owner.threadId :=
  Table.key_of_find? (t := db'.threads) (by rw [h.threads, if_pos rfl])

/-- Nothing changes for the index when a thread keeps its owner. -/
theorem ownerChange_self {old new : ThreadRow} (ix : ContextIndex) (hchat : old.chatId = new.chatId)
    (htomb : old.tombstonedAt = new.tombstonedAt) : ix.ownerChange old new = ix := by
  unfold ContextIndex.ownerChange
  rw [if_neg]
  rintro ⟨hne | hne, -⟩
  · exact hne hchat
  · exact hne htomb

/-- Rows inserted under a new thread, and then its head. -/
theorem extended_of_copy {db₁ db₂ : SnapshotDb} {fields : StateFields} {target headId : String}
    {new : List SnapshotRow} {n : Nat} {u : Unit}
    (hthread : (insertThread ⟨fields, target, none, none, none⟩).run db = .ok (u, db₁))
    (hins : Inserted db₁ db₂ ⟨fields, target, none, none, none⟩ new) (hlog : BoundaryLog 1 "" new)
    (hhead : headId = newest "" new) (hn : new.length = n) :
    Extended db (setHead target n headId db₂) ⟨fields, target, none, none, none⟩
      ⟨fields, target, some n, some headId, none⟩ new := by
  obtain ⟨hnone, hsnapshots, hindex, hfind⟩ := insertThread_eq_ok hthread
  refine ⟨?_, ?_, hins.owned, ?_, .inl ⟨hnone, rfl, rfl⟩, ⟨rfl, rfl⟩, hlog, ?_, ?_⟩
  · intro j
    rw [find?_setHead, hins.threads]
    by_cases hj : j = target
    · rw [if_pos hj, if_pos hj, hfind, if_pos rfl]
      rfl
    · rw [if_neg hj, if_neg hj, hfind, if_neg (Ne.symm hj)]
  · show db₂.snapshots.rows = _
    rw [hins.rows, hsnapshots]
  · show db₂.index = _
    rw [hins.index, hindex]
    congr 1
    funext ix
    exact (ownerChange_self _ rfl rfl).symm
  · show some n = _
    rw [hn]
    exact congrArg some (Nat.zero_add n).symm
  · exact congrArg some hhead

/-- What a commit does, when it returns. -/
theorem commitTxn_eq_ok {p : PreparedBoundary} {expected : Option Int} {u : BitVec 128}
    {cursor : SnapshotCursor} (h : (commitTxn p expected u).run db = .ok (cursor, db')) :
    ∃ owner, owner.threadId = p.threadId ∧ fenced owner.headSeq expected = true ∧
      cursor = ⟨p.threadId, owner.count + 1, newSnapshotId u⟩ ∧
      Extended db db' owner (p.advance (owner.count + 1) (newSnapshotId u) owner)
        [p.row (owner.count + 1) (newSnapshotId u) owner.headId] := by
  unfold commitTxn at h
  obtain ⟨⟨current, parent⟩, db₁, hopen, h⟩ := Txn.run_bind_eq_ok.mp h
  dsimp only at h
  obtain ⟨u₁, db₂, hins, h⟩ := Txn.run_bind_eq_ok.mp h
  obtain ⟨u₂, db₃, hupdate, h⟩ := Txn.run_bind_eq_ok.mp h
  rw [Txn.run_modify, Except.ok.injEq, Prod.mk.injEq] at hupdate
  obtain ⟨-, rfl⟩ := hupdate
  obtain ⟨rfl, rfl⟩ := Txn.run_pure_eq_ok.mp h
  -- the thread row the boundary is inserted under
  obtain ⟨owner, hid, hfence, hcurrent, hparent, hopened, hlive, hsnapshots, hindex, hfind⟩ :
      ∃ owner : ThreadRow, owner.threadId = p.threadId ∧ fenced owner.headSeq expected = true ∧
        current = owner.headSeq ∧ parent = owner.headId ∧
        (db.threads.find? owner.threadId = none ∧ owner.headSeq = none ∧
            owner.headSnapshotId = none ∨ db.threads.find? owner.threadId = some owner) ∧
        owner.tombstonedAt = none ∧ db₁.snapshots = db.snapshots ∧ db₁.index = db.index ∧
        ∀ j, db₁.threads.find? j = if j = p.threadId then some owner else db.threads.find? j := by
    unfold openThread at hopen
    rw [Txn.run_read_bind] at hopen
    cases hfound : db.threads.find? p.threadId with
    | some t =>
        rw [hfound] at hopen
        dsimp only at hopen
        rw [Txn.run_ensure_bind_eq_ok, Txn.run_ensure_bind_eq_ok] at hopen
        obtain ⟨htomb, hfence, hopen⟩ := hopen
        obtain ⟨hpair, rfl⟩ := Txn.run_pure_eq_ok.mp hopen
        obtain ⟨rfl, rfl⟩ := Prod.mk.inj hpair
        have hid : t.threadId = p.threadId := Table.key_of_find? hfound
        refine ⟨t, hid, hfence, rfl, rfl, .inr (by rw [hid, hfound]), htomb, rfl, rfl, fun j => ?_⟩
        by_cases hj : j = p.threadId
        · rw [if_pos hj, hj, hfound]
        · rw [if_neg hj]
    | none =>
        rw [hfound] at hopen
        dsimp only at hopen
        rw [Txn.run_ensure_bind_eq_ok] at hopen
        obtain ⟨hexpected, hopen⟩ := hopen
        obtain ⟨u₃, db₄, hthread, hopen⟩ := Txn.run_bind_eq_ok.mp hopen
        obtain ⟨hpair, rfl⟩ := Txn.run_pure_eq_ok.mp hopen
        obtain ⟨rfl, rfl⟩ := Prod.mk.inj hpair
        obtain ⟨-, hsnapshots, hindex, hfind⟩ := insertThread_eq_ok hthread
        refine ⟨⟨noFields, p.threadId, none, none, none⟩, rfl, by rw [hexpected]; rfl, rfl, rfl,
          .inl ⟨hfound, rfl, rfl⟩, rfl, hsnapshots, hindex, fun j => ?_⟩
        rw [hfind]
        simp only [eq_comm]
  subst hcurrent hparent
  have howner : db₁.threads.find? p.threadId = some owner := by rw [hfind, if_pos rfl]
  obtain ⟨hinserted, -⟩ := insertSnapshot_eq_ok (t := owner) howner hins
  refine ⟨owner, hid, hfence, rfl, ?_, ?_, hinserted.owned, ?_, hopened, ⟨hlive, hlive⟩,
    ⟨rfl, rfl, trivial⟩, rfl, rfl⟩
  · intro j
    rw [find?_updateOwner, hinserted.threads, howner, hid, hfind]
    by_cases hj : j = p.threadId
    · rw [if_pos hj, if_pos hj]
      rfl
    · rw [if_neg hj, if_neg hj, if_neg hj]
  · show db₂.snapshots.rows = _
    rw [hinserted.rows, hsnapshots]
    rfl
  · show db₂.index.map _ = _
    rw [hinserted.threads, howner, hinserted.index, hindex, Option.map_map]
    rfl

theorem copySource_eq_ok {source : String} {t : ThreadRow} {n : Nat}
    (h : copySource db source = .ok (t, n)) :
    db.threads.find? source = some t ∧ t.tombstonedAt = none ∧ t.headSeq = some n := by
  unfold copySource at h
  split at h
  · rename_i t' hfind
    split at h
    · rename_i htomb hhead
      obtain ⟨rfl, rfl⟩ := Prod.mk.inj (Except.ok.inj h)
      exact ⟨hfind, htomb, hhead⟩
    · exact absurd h (by simp)
  · exact absurd h (by simp)

/-- What a copy does, when it returns. -/
theorem copyTxn_eq_ok {source target : String} {ids : Nat → BitVec 128} {u : Unit}
    (h : (C.copyTxn source target ids).run db = .ok (u, db')) :
    ∃ t n new, copySource db source = .ok (t, n) ∧ db.threads.find? target = none ∧ new.length = n ∧
      List.Forall₂ (C.CopyOf source target) (db.boundaries source) new ∧
      Extended db db' ⟨t.toStateFields, target, none, none, none⟩
        ⟨t.toStateFields, target, some n, some (newest "" new), none⟩ new := by
  unfold SnapshotCodec.copyTxn at h
  rw [Txn.run_read_bind, Txn.run_lift_bind_eq_ok] at h
  obtain ⟨⟨t, n⟩, hsource, h⟩ := h
  dsimp only at h
  rw [Txn.run_ensure_bind_eq_ok] at h
  obtain ⟨htarget, h⟩ := h
  obtain ⟨u₁, db₁, hthread, h⟩ := Txn.run_bind_eq_ok.mp h
  obtain ⟨c, db₂, hcopy, h⟩ := Txn.run_bind_eq_ok.mp h
  rw [Txn.run_ensure_bind_eq_ok, Txn.run_modify, Except.ok.injEq, Prod.mk.injEq] at h
  obtain ⟨⟨hseq, -⟩, -, rfl⟩ := h
  obtain ⟨-, -, -, hfind⟩ := insertThread_eq_ok hthread
  obtain ⟨new, hins, hcopies, hlog, hhead, hnext⟩ := copyRows_eq_ok _
    (by rw [hfind, if_pos rfl]) CopyCursor.maps_start hcopy
  have hlen : new.length = n := by
    rw [hseq] at hnext
    show new.length = n
    have hstart : CopyCursor.start.expectedSeq = 1 := rfl
    omega
  refine ⟨t, n, new, hsource, htarget, hlen, hcopies, ?_⟩
  rw [hhead]
  exact extended_of_copy hthread hins hlog rfl hlen

theorem checkTarget_eq_ok {target : String} {u : Unit} (h : checkTarget db target = .ok u) :
    db.threads.find? target = none := by
  unfold checkTarget at h
  cases hfind : db.threads.find? target with
  | none => rfl
  | some t =>
      rw [hfind] at h
      dsimp only at h
      split at h <;> exact absurd h (by simp)

/-- What a prefix copy does, when it returns. -/
theorem copyThroughTxn_eq_ok {source : SnapshotCursor} {target : CopyTarget} {ids : Nat → BitVec 128}
    {cursor : SnapshotCursor} (h : (C.copyThroughTxn source target ids).run db = .ok (cursor, db')) :
    ∃ t n ps new fields, copySource db source.threadId = .ok (t, n) ∧
      db.threads.find? target.threadId = none ∧ new.length = source.sequence ∧
      List.Forall₂ (C.PrefixCopyOf source.threadId t.runId target)
        ((db.boundaries source.threadId).filter fun r => r.seq ≤ source.sequence) ps ∧
      List.Forall₂ (PreparedCopy.Row target.threadId) ps new ∧
      (∃ p, ps.getLast? = some p ∧ fields = p.fields) ∧
      cursor = ⟨target.threadId, source.sequence, newest "" new⟩ ∧
      Extended db db' ⟨fields, target.threadId, none, none, none⟩
        ⟨fields, target.threadId, some source.sequence, some (newest "" new), none⟩ new := by
  unfold SnapshotCodec.copyThroughTxn at h
  rw [Txn.run_read_bind, Txn.run_lift_bind_eq_ok] at h
  obtain ⟨⟨prepared, fields⟩, hprepare, h⟩ := h
  dsimp only at h
  unfold SnapshotCodec.preparePrefix at hprepare
  obtain ⟨⟨t, n⟩, hsource, hprepare⟩ := except_bind_eq_ok.mp hprepare
  dsimp only at hprepare
  obtain ⟨-, hprepare⟩ := require_bind_eq_ok.mp hprepare
  obtain ⟨-, hprepare⟩ := require_bind_eq_ok.mp hprepare
  obtain ⟨u, hcheck, hprepare⟩ := except_bind_eq_ok.mp hprepare
  have htarget := checkTarget_eq_ok hcheck
  obtain ⟨hlength, hprepare⟩ := require_bind_eq_ok.mp hprepare
  obtain ⟨ps, hps, hprepare⟩ := except_bind_eq_ok.mp hprepare
  obtain ⟨hcopies, hprepared⟩ := prepareCopies_eq_ok _ hps
  cases hlast : ps.getLast? with
  | none =>
      rw [hlast] at hprepare
      exact absurd hprepare (by simp)
  | some selected =>
      rw [hlast] at hprepare
      dsimp only at hprepare
      obtain ⟨-, hprepare⟩ := require_bind_eq_ok.mp hprepare
      obtain ⟨rfl, rfl⟩ := Prod.mk.inj (Except.ok.inj hprepare)
      obtain ⟨u₁, db₁, hthread, h⟩ := Txn.run_bind_eq_ok.mp h
      obtain ⟨headId, db₂, hcopy, h⟩ := Txn.run_bind_eq_ok.mp h
      obtain ⟨u₂, db₃, hhead, h⟩ := Txn.run_bind_eq_ok.mp h
      rw [Txn.run_modify, Except.ok.injEq, Prod.mk.injEq] at hhead
      obtain ⟨-, rfl⟩ := hhead
      obtain ⟨rfl, rfl⟩ := Txn.run_pure_eq_ok.mp h
      obtain ⟨-, -, -, hfind⟩ := insertThread_eq_ok hthread
      obtain ⟨new, hins, hrows, hlog, hnewest⟩ := insertCopies_eq_ok _
        (by rw [hfind, if_pos rfl]) rfl hprepared hcopy
      have hlen : new.length = source.sequence := by
        rw [← hrows.length_eq, ← hcopies.length_eq]
        simpa using hlength
      refine ⟨t, n, ps, new, selected.fields, hsource, htarget, hlen, hcopies, hrows,
        ⟨selected, hlast, rfl⟩, by rw [hnewest], ?_⟩
      rw [hnewest]
      exact extended_of_copy hthread hins hlog rfl hlen

/-- A thread was deleted: its boundaries are gone. -/
structure Deleted (db db' : SnapshotDb) (k : String) (old : Option ThreadRow) (now : ℚ) : Prop where
  found : db.threads.find? k = old
  threads : ∀ j, j ≠ k → db'.threads.find? j = db.threads.find? j
  tombstone : ∃ t, db'.threads.find? k = some t ∧ t.tombstonedAt = some now
  rows : db'.snapshots.rows = if old.isSome then
    db.snapshots.rows.filter fun r => !decide (r.threadId = k) else db.snapshots.rows
  index : db'.index = match old with
    | none => db.index
    | some t => db.index.map fun ix =>
        ((db.rowsOf k).foldl ContextIndex.afterDelete ix).ownerChange t (t.tombstone now)

theorem deleteTxn_eq_ok {thread : String} {now : ℚ} {u : Unit}
    (h : (deleteTxn thread now).run db = .ok (u, db')) :
    Deleted db db' thread (db.threads.find? thread) now := by
  unfold deleteTxn at h
  rw [Txn.run_read_bind] at h
  cases hfind : db.threads.find? thread with
  | none =>
      rw [hfind] at h
      obtain ⟨-, hsnapshots, hindex, hthreads⟩ := insertThread_eq_ok h
      refine ⟨hfind, fun j hj => ?_, ⟨_, by rw [hthreads, if_pos rfl], rfl⟩, ?_, hindex⟩
      · rw [hthreads, if_neg (Ne.symm hj)]
      · rw [hsnapshots]
        rfl
  | some t =>
      rw [hfind] at h
      dsimp only at h
      obtain ⟨u₁, db₁, hdelete, h⟩ := Txn.run_bind_eq_ok.mp h
      rw [Txn.run_modify, Except.ok.injEq, Prod.mk.injEq] at hdelete
      obtain ⟨-, rfl⟩ := hdelete
      rw [Txn.run_modify, Except.ok.injEq, Prod.mk.injEq] at h
      obtain ⟨-, rfl⟩ := h
      have hthreads : ∀ j, (updateOwner thread (ThreadRow.tombstone now)
          (ThreadRow.threadId_tombstone now) (deleteSnapshots thread db)).threads.find? j =
          if j = thread then some (t.tombstone now) else db.threads.find? j := by
        intro j
        rw [find?_updateOwner]
        show (if j = thread then (db.threads.find? thread).map _ else _) = _
        rw [hfind]
        rfl
      refine ⟨hfind, fun j hj => by rw [hthreads, if_neg hj],
        ⟨_, by rw [hthreads, if_pos rfl], rfl⟩, rfl, ?_⟩
      show (db.index.map _).map _ = _
      rw [Option.map_map]
      congr 1
      funext ix
      show (match db.threads.find? thread with
        | none => _
        | some t => _) = _
      rw [hfind]

/-! ## 5.  One step -/

/-- What one operation can do. -/
inductive StoreStep (C : SnapshotCodec) (db : SnapshotDb) :
    SnapshotOp → SnapshotReply → SnapshotDb → Prop
  | raised {op : SnapshotOp} {e : SnapshotError} : StoreStep C db op (.raised e) db
  | deletedBlank {thread : String} {now : ℚ} : strip thread = "" →
      StoreStep C db (.delete thread now) .done db
  | copiedSelf {source target : String} {ids : Nat → BitVec 128} : strip source = strip target →
      StoreStep C db (.copy source target ids) .done db
  | initialized : StoreStep C db .initIndex .done db.initIndex
  | committed {state : PyDict} {completedNode nextNode : String} {expected : Option Int}
      {u : BitVec 128} {p : PreparedBoundary} {owner : ThreadRow} {db' : SnapshotDb} :
      C.prepareBoundary state completedNode nextNode = .ok p → owner.threadId = p.threadId →
      fenced owner.headSeq expected = true →
      Extended db db' owner (p.advance (owner.count + 1) (newSnapshotId u) owner)
        [p.row (owner.count + 1) (newSnapshotId u) owner.headId] →
      StoreStep C db (.commit state completedNode nextNode expected u)
        (.committed ⟨p.threadId, owner.count + 1, newSnapshotId u⟩) db'
  | copied {source target : String} {ids : Nat → BitVec 128} {t : ThreadRow} {n : Nat}
      {new : List SnapshotRow} {db' : SnapshotDb} : strip target ≠ "" ∧ strip source ≠ strip target →
      copySource db (strip source) = .ok (t, n) → db.threads.find? (strip target) = none →
      new.length = n →
      List.Forall₂ (C.CopyOf (strip source) (strip target)) (db.boundaries (strip source)) new →
      Extended db db' ⟨t.toStateFields, strip target, none, none, none⟩
        ⟨t.toStateFields, strip target, some n, some (newest "" new), none⟩ new →
      StoreStep C db (.copy source target ids) .done db'
  | copiedThrough {source : SnapshotCursor} {target : CopyTarget} {ids : Nat → BitVec 128}
      {t : ThreadRow} {n : Nat} {ps : List PreparedCopy} {p : PreparedCopy}
      {new : List SnapshotRow} {db' : SnapshotDb} : strip target.threadId ≠ "" ∧ 0 < source.sequence →
      copySource db (strip source.threadId) = .ok (t, n) →
      db.threads.find? (strip target.threadId) = none → new.length = source.sequence →
      List.Forall₂ (C.PrefixCopyOf (strip source.threadId) t.runId
          ⟨strip target.threadId, strip target.runId, strip target.chatId⟩)
        ((db.boundaries (strip source.threadId)).filter fun r => r.seq ≤ source.sequence) ps →
      List.Forall₂ (PreparedCopy.Row (strip target.threadId)) ps new → ps.getLast? = some p →
      Extended db db' ⟨p.fields, strip target.threadId, none, none, none⟩
        ⟨p.fields, strip target.threadId, some source.sequence, some (newest "" new), none⟩ new →
      StoreStep C db (.copyThrough source target ids)
        (.committed ⟨strip target.threadId, source.sequence, newest "" new⟩) db'
  | deleted {thread : String} {now : ℚ} {db' : SnapshotDb} : strip thread ≠ "" →
      Deleted db db' (strip thread) (db.threads.find? (strip thread)) now →
      StoreStep C db (.delete thread now) .done db'

theorem unitOfWork_cases {α : Type} (x : StoreTxn α) (db : SnapshotDb) :
    (∃ a db', x.run db = .ok (a, db') ∧ Txn.unitOfWork x none db = (.ok a, db')) ∨
      ∃ e, Txn.unitOfWork x none db = (.error e, db) := by
  cases hrun : x.run db with
  | error e => exact .inr ⟨e, Txn.unitOfWork_of_run_error hrun⟩
  | ok p => exact .inl ⟨p.1, p.2, rfl, Txn.unitOfWork_of_run hrun⟩

theorem stepStore_eq {op : SnapshotOp} {r : SnapshotReply} (h : C.stepStore op db = (r, db')) :
    StoreStep C db op r db' := by
  cases op with
  | commit state completedNode nextNode expected u =>
      rw [SnapshotCodec.stepStore, SnapshotCodec.commitBoundary] at h
      cases hp : C.prepareBoundary state completedNode nextNode with
      | error e =>
          rw [hp] at h
          obtain ⟨rfl, rfl⟩ := Prod.mk.inj h
          exact .raised
      | ok p =>
          rw [hp] at h
          dsimp only at h
          rcases unitOfWork_cases (commitTxn p expected u) db with ⟨cursor, db₁, hrun, hunit⟩ | ⟨e, hunit⟩
          · rw [hunit] at h
            obtain ⟨rfl, rfl⟩ := Prod.mk.inj h
            obtain ⟨owner, hid, hfence, rfl, hext⟩ := commitTxn_eq_ok hrun
            exact .committed hp hid hfence hext
          · rw [hunit] at h
            obtain ⟨rfl, rfl⟩ := Prod.mk.inj h
            exact .raised
  | copy source target ids =>
      rw [SnapshotCodec.stepStore, SnapshotCodec.copyThread] at h
      split at h
      · obtain ⟨rfl, rfl⟩ := Prod.mk.inj h
        exact .raised
      rename_i hblank
      split at h
      · rename_i heq
        obtain ⟨rfl, rfl⟩ := Prod.mk.inj h
        exact .copiedSelf heq
      rename_i hne
      rcases unitOfWork_cases (C.copyTxn (strip source) (strip target) ids) db with
        ⟨u, db₁, hrun, hunit⟩ | ⟨e, hunit⟩
      · rw [hunit] at h
        obtain ⟨rfl, rfl⟩ := Prod.mk.inj h
        obtain ⟨t, n, new, hsource, htarget, hlen, hcopies, hext⟩ := copyTxn_eq_ok hrun
        exact .copied ⟨fun htext => hblank (.inr htext), hne⟩ hsource htarget hlen hcopies hext
      · rw [hunit] at h
        obtain ⟨rfl, rfl⟩ := Prod.mk.inj h
        exact .raised
  | copyThrough source target ids =>
      rw [SnapshotCodec.stepStore, SnapshotCodec.copyThreadThrough] at h
      dsimp only at h
      split at h
      · obtain ⟨rfl, rfl⟩ := Prod.mk.inj h
        exact .raised
      rename_i hcomplete
      split at h
      · obtain ⟨rfl, rfl⟩ := Prod.mk.inj h
        exact .raised
      rename_i htext
      split at h
      · obtain ⟨rfl, rfl⟩ := Prod.mk.inj h
        exact .raised
      have hpos : 0 < source.sequence := by
        by_contra hzero
        exact hcomplete (.inr (.inr (by omega)))
      rcases unitOfWork_cases (C.copyThroughTxn _ _ ids) db with ⟨cursor, db₁, hrun, hunit⟩ | ⟨e, hunit⟩
      · rw [hunit] at h
        obtain ⟨rfl, rfl⟩ := Prod.mk.inj h
        obtain ⟨t, n, ps, new, fields, hsource, htarget, hlen, hcopies, hrows, ⟨p, hlast, rfl⟩, rfl,
          hext⟩ := copyThroughTxn_eq_ok hrun
        exact .copiedThrough ⟨fun hblank => htext (.inl hblank), hpos⟩ hsource htarget hlen hcopies hrows hlast hext
      · rw [hunit] at h
        obtain ⟨rfl, rfl⟩ := Prod.mk.inj h
        exact .raised
  | delete thread now =>
      rw [SnapshotCodec.stepStore, deleteThread] at h
      split at h
      · rename_i hblank
        obtain ⟨rfl, rfl⟩ := Prod.mk.inj h
        exact .deletedBlank hblank
      · rename_i hthread
        rcases unitOfWork_cases (deleteTxn (strip thread) now) db with ⟨u, db₁, hrun, hunit⟩ | ⟨e, hunit⟩
        · rw [hunit] at h
          obtain ⟨rfl, rfl⟩ := Prod.mk.inj h
          exact .deleted hthread (deleteTxn_eq_ok hrun)
        · rw [hunit] at h
          obtain ⟨rfl, rfl⟩ := Prod.mk.inj h
          exact .raised
  | initIndex =>
      obtain ⟨rfl, rfl⟩ := Prod.mk.inj h
      exact .initialized

end AgentEngine
end VariantOne
