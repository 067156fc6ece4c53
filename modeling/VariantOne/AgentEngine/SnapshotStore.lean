import VariantOne.AgentEngine.RunState
import VariantOne.Lib.Machine
import VariantOne.Lib.Table
import VariantOne.Lib.Txn

/-!
# The snapshot store

A thread is a row that names its newest boundary, and a boundary is a row of its own.  A
commit appends a boundary to a thread under a fence on the head sequence; a copy rebuilds
the boundaries of a thread, or a prefix of them, under another thread id; a deletion drops
them and leaves a tombstone.  Each is one transaction.

The index over the boundaries is kept by triggers inside these transactions.  It numbers
the boundaries of all threads and counts, for each chat, how often earlier numbers may
have changed.
-/

namespace VariantOne
namespace AgentEngine

/-! ## 1.  The codec of a boundary -/

/-- `_state_fields`, of the columns that are compared or routed on. -/
structure StateFields where
  runId : String
  source : String
  chatId : String
  status : String
  resumable : Bool
  deriving DecidableEq, Repr

/-- The entries of an object under a key, if it is an object. -/
def subDoc (state : Doc) (key : String) : Doc :=
  match Dict.get? state key with
  | some (.obj entries) => entries
  | _ => []

/-- `_TERMINAL_STATUSES` -/
def terminalStatuses : List String := ["completed", "failed", "cancelled", "error", "truncated"]

variable (C : SnapshotCodec)

/-- `str(state.get("thread_id") or state.get("run_id") or "")` -/
def SnapshotCodec.stateThreadId (state : Doc) : String :=
  C.firstText [item state "thread_id", item state "run_id"]

def SnapshotCodec.stateFields (state : Doc) : StateFields :=
  let task := subDoc state "task"
  let status := C.firstText [item state "status", item task "status",
    item (subDoc state "output") "completion_status"]
  { runId := C.firstText [item state "run_id", item task "task_id"]
    source := C.field state "source"
    chatId := C.field state "chat_id"
    status := status
    resumable := !terminalStatuses.contains (C.P.lower status) }

/-- `_canonical_json`, as the document that is read back from its text. -/
def storedDoc (state : Doc) : Doc := Dict.sort (Json.canonEntries state)

/-- `_payload_checksum` -/
def SnapshotCodec.payloadChecksum (state : Doc) (completedNode nextNode codec : String)
    (privacy : Nat) : String :=
  C.sha256 (Json.dumps (.obj [("codec_version", .str codec), ("completed_node", .str completedNode),
    ("next_node", .str nextNode), ("privacy_revision", .int privacy), ("state", .obj state)]))

/-- `_max_state_bytes` -/
def SnapshotCodec.stateLimit : Nat := max 1024 C.maxStateBytes

/-- The state fits the configured limit. -/
def SnapshotCodec.fits (state : Doc) : Bool :=
  decide (Json.utf8Length (Json.dumps (.obj state)) ≤ C.stateLimit)

/-- What `_encode_snapshot` returns: the scrubbed state, its document and its checksum. -/
structure EncodedSnapshot where
  normalized : Doc
  stateBlob : Doc
  payloadSha256 : String

/-- `_encode_snapshot` -/
def SnapshotCodec.encodeSnapshot (state : PyDict) (completedNode nextNode : String) :
    Except SnapshotError EncodedSnapshot := do
  let (normalized, _) ← C.scrubEntries (C.imageSource state) state "$"
  C.validateRunState normalized completedNode nextNode
  require (C.fits normalized) (.value s!"snapshot state exceeds {C.stateLimit} bytes")
  return ⟨normalized, storedDoc normalized,
    C.payloadChecksum normalized completedNode nextNode codecVersion privacyRevision⟩

/-- `_decode_state`; the names of codecs hold no quotes. -/
def SnapshotCodec.decodeState (stateBlob : Doc) (codec : String) : Except SnapshotError Doc := do
  require (codec = codecVersion) (.unavailable s!"unsupported native snapshot codec: '{codec}'")
  require (C.fits stateBlob) (.unavailable
    s!"native snapshot could not be decoded: uncompressed snapshot exceeds {C.stateLimit} bytes")
  return stateBlob

/-! ## 2.  The tables -/

/-- `agent_threads` -/
structure ThreadRow extends StateFields where
  threadId : String
  headSeq : Option Nat
  headSnapshotId : Option String
  tombstonedAt : Option ℚ
  deriving DecidableEq, Repr

/-- `agent_snapshots` -/
structure SnapshotRow where
  threadId : String
  seq : Nat
  snapshotId : String
  parentSnapshotId : String
  runId : String
  completedNode : String
  nextNode : String
  codecVersion : String
  privacyRevision : Nat
  stateBlob : Doc
  payloadSha256 : String

abbrev ThreadTable := Table ThreadRow String fun t => t.threadId

abbrev SnapshotTable := Table SnapshotRow String fun r => r.snapshotId

/-- `context_snapshot_order` -/
structure OrderRow where
  ordinal : Nat
  chatId : String
  threadId : String
  sequence : Nat
  snapshotId : String
  deriving DecidableEq, Repr

/-- The index: its order, the largest ordinal it ever gave out, and the epochs. -/
structure ContextIndex where
  order : List OrderRow
  lastOrdinal : Nat
  scope : List (String × Nat)

/-- The database.  The index is there once it has been initialised. -/
structure SnapshotDb where
  threads : ThreadTable
  snapshots : SnapshotTable
  index : Option ContextIndex

namespace SnapshotDb

/-- A new database. -/
def empty : SnapshotDb := ⟨Table.empty, Table.empty, none⟩

/-- The rows of a thread, in insertion order. -/
def rowsOf (db : SnapshotDb) (thread : String) : List SnapshotRow :=
  db.snapshots.rows.filter fun r => r.threadId = thread

/-- `WHERE thread_id=? ORDER BY seq` -/
def boundaries (db : SnapshotDb) (thread : String) : List SnapshotRow :=
  (db.rowsOf thread).insertionSort fun r r' => r.seq ≤ r'.seq

end SnapshotDb

/-! ## 3.  The triggers of the index -/

namespace ContextIndex

/-- `INSERT … VALUES(chat_id,1) … ON CONFLICT(chat_id) DO UPDATE SET epoch=epoch+1` -/
def bump (scope : List (String × Nat)) (chat : String) : List (String × Nat) :=
  Dict.set scope chat ((Dict.get? scope chat).elim 1 (· + 1))

/-- The next ordinal, for a boundary of a thread of a chat. -/
def append (ix : ContextIndex) (chat : String) (r : SnapshotRow) : ContextIndex :=
  { ix with
    order := ix.order ++ [⟨ix.lastOrdinal + 1, chat, r.threadId, r.seq, r.snapshotId⟩]
    lastOrdinal := ix.lastOrdinal + 1 }

/-- The order row of a boundary is there. -/
def orders (ix : ContextIndex) (thread : String) (seq : Nat) : Bool :=
  ix.order.any fun o => decide (o.threadId = thread ∧ o.sequence = seq)

/-- `context_snapshot_insert` -/
def afterInsert (threads : ThreadTable) (r : SnapshotRow) (ix : ContextIndex) :
    Except SnapshotError ContextIndex :=
  match threads.find? r.threadId with
  | none => .ok ix
  | some t =>
      if ix.orders r.threadId r.seq then
        .error ⟨.integrityError, "UNIQUE constraint failed: context_snapshot_order"⟩
      else .ok (ix.append t.chatId r)

/-- `context_snapshot_delete` -/
def afterDelete (ix : ContextIndex) (r : SnapshotRow) : ContextIndex :=
  let gone := ix.order.filter fun o => decide (o.threadId = r.threadId ∧ o.sequence = r.seq)
  { ix with
    order := ix.order.filter fun o => !decide (o.threadId = r.threadId ∧ o.sequence = r.seq)
    scope := gone.foldl (fun scope o => bump scope o.chatId) ix.scope }

/-- Some boundary of the thread is in the index. -/
def hasThread (ix : ContextIndex) (thread : String) : Bool :=
  ix.order.any fun o => decide (o.threadId = thread)

/-- The epochs after a thread went from one owner to another: nothing is counted for a
thread that had no chat. -/
def ownerEpochs (scope : List (String × Nat)) (old new : String) : List (String × Nat) :=
  let scope := if old ≠ "" then bump scope old else scope
  if old ≠ "" ∧ new ≠ old then bump scope new else scope

/-- `context_snapshot_owner_change` -/
def ownerChange (old new : ThreadRow) (ix : ContextIndex) : ContextIndex :=
  if (old.chatId ≠ new.chatId ∨ old.tombstonedAt ≠ new.tombstonedAt) ∧ ix.hasThread old.threadId then
    { ix with
      order := ix.order.map fun o => if o.threadId = new.threadId then { o with chatId := new.chatId } else o
      scope := ownerEpochs ix.scope old.chatId new.chatId }
  else ix

/-- The backfill of `initialize`: the boundaries there are, in the order they were inserted. -/
def backfill (threads : ThreadTable) (rows : List SnapshotRow) : ContextIndex :=
  rows.foldl (fun ix r =>
    match threads.find? r.threadId with
    | none => ix
    | some t => if ix.orders r.threadId r.seq then ix else ix.append t.chatId r) ⟨[], 0, []⟩

end ContextIndex

/-- `initialize`: only the first initialisation of a database backfills. -/
def SnapshotDb.initIndex (db : SnapshotDb) : SnapshotDb :=
  match db.index with
  | some _ => db
  | none => { db with index := some (ContextIndex.backfill db.threads db.snapshots.rows) }

/-! ## 4.  The statements -/

/-- The body of a transaction of the store. -/
abbrev StoreTxn := Txn SnapshotDb SnapshotError

def integrityError (constraint : String) : SnapshotError :=
  ⟨.integrityError, s!"UNIQUE constraint failed: {constraint}"⟩

/-- `INSERT INTO agent_threads` -/
def insertThread (t : ThreadRow) : StoreTxn Unit := do
  let db ← Txn.read
  match db.threads.insert? t with
  | none => Txn.raise (integrityError "agent_threads.thread_id")
  | some threads => Txn.modify fun _ => { db with threads := threads }

/-- The index after an insertion. -/
def indexInsert (threads : ThreadTable) (r : SnapshotRow) :
    Option ContextIndex → Except SnapshotError (Option ContextIndex)
  | none => .ok none
  | some ix => (ix.afterInsert threads r).map some

/-- `INSERT INTO agent_snapshots` -/
def insertSnapshot (r : SnapshotRow) : StoreTxn Unit := do
  let db ← Txn.read
  Txn.ensure (∀ x ∈ db.snapshots.rows, ¬ (x.threadId = r.threadId ∧ x.seq = r.seq))
    (integrityError "agent_snapshots.thread_id, agent_snapshots.seq")
  match db.snapshots.insert? r with
  | none => Txn.raise (integrityError "agent_snapshots.snapshot_id")
  | some snapshots =>
      let index ← Txn.lift (indexInsert db.threads r db.index)
      Txn.modify fun _ => { db with snapshots := snapshots, index := index }

/-- The rows of a table that a test keeps. -/
def SnapshotTable.keep (t : SnapshotTable) (p : SnapshotRow → Bool) : SnapshotTable where
  rows := t.rows.filter p
  unique := t.unique.sublist (List.filter_sublist.map _)

/-- `DELETE FROM agent_snapshots WHERE thread_id=?` -/
def deleteSnapshots (thread : String) (db : SnapshotDb) : SnapshotDb :=
  { db with
    snapshots := SnapshotTable.keep db.snapshots fun r => !decide (r.threadId = thread)
    index := db.index.map fun ix => (db.rowsOf thread).foldl ContextIndex.afterDelete ix }

/-- `UPDATE agent_threads SET head_seq=?, head_snapshot_id=?` -/
def setHead (thread : String) (seq : Nat) (snapshotId : String) (db : SnapshotDb) : SnapshotDb :=
  { db with
    threads := db.threads.updateWhere (fun t => t.threadId = thread)
      (fun t => { t with headSeq := some seq, headSnapshotId := some snapshotId }) fun _ => rfl }

/-- An `UPDATE` of a thread that sets its owner or its tombstone. -/
def updateOwner (thread : String) (f : ThreadRow → ThreadRow)
    (hf : ∀ t, (f t).threadId = t.threadId) (db : SnapshotDb) : SnapshotDb :=
  { db with
    threads := db.threads.updateWhere (fun t => t.threadId = thread) f hf
    index := db.index.map fun ix =>
      match db.threads.find? thread with
      | none => ix
      | some t => ix.ownerChange t (f t) }

/-! ## 5.  The operations -/

/-- A boundary of a thread. -/
structure SnapshotCursor where
  threadId : String
  sequence : Nat
  snapshotId : String
  deriving DecidableEq, Repr

/-- `"snap_" + uuid.uuid4().hex` -/
def newSnapshotId (u : BitVec 128) : String := newId "snap" u

/-- What a commit has computed before its transaction. -/
structure PreparedBoundary where
  threadId : String
  fields : StateFields
  completedNode : String
  nextNode : String
  stateBlob : Doc
  payloadSha256 : String

/-- The checks of a commit. -/
def SnapshotCodec.prepareBoundary (state : PyDict) (completedNode nextNode : String) :
    Except SnapshotError PreparedBoundary := do
  let completedNode := strip completedNode
  let nextNode := strip nextNode
  require (completedNode ≠ "" && nextNode ≠ "")
    (.value "snapshot boundary requires completed_node and next_node")
  let e ← C.encodeSnapshot state completedNode nextNode
  let threadId := strip (C.stateThreadId e.normalized)
  require (threadId ≠ "") (.value "snapshot state has no thread_id or run_id")
  return ⟨threadId, C.stateFields e.normalized, completedNode, nextNode, e.stateBlob,
    e.payloadSha256⟩

/-- The columns of a thread that a first commit does not set yet. -/
def noFields : StateFields := ⟨"", "", "", "", false⟩

/-- The head of a thread row passes the fence. -/
def fenced (headSeq : Option Nat) (expected : Option Int) : Bool :=
  match expected with
  | none => headSeq.isNone
  | some e => decide (headSeq.map Int.ofNat = some e)

/-- The head a commit finds, and the id of its boundary: a new thread is inserted. -/
def openThread (p : PreparedBoundary) (expected : Option Int) : StoreTxn (Option Nat × String) := do
  let db ← Txn.read
  match db.threads.find? p.threadId with
  | some t =>
      Txn.ensure (t.tombstonedAt = none) ⟨.tombstoned, s!"snapshot thread is deleted: {p.threadId}"⟩
      Txn.ensure (fenced t.headSeq expected)
        ⟨.storeConflict, s!"snapshot head changed for {p.threadId}"⟩
      return (t.headSeq, t.headSnapshotId.getD "")
  | none =>
      Txn.ensure (expected = none)
        ⟨.storeConflict, s!"snapshot thread {p.threadId} does not exist at the expected sequence"⟩
      insertThread ⟨noFields, p.threadId, none, none, none⟩
      return (none, "")

/-- The row of a boundary. -/
def PreparedBoundary.row (p : PreparedBoundary) (seq : Nat) (snapshotId parent : String) :
    SnapshotRow :=
  ⟨p.threadId, seq, snapshotId, parent, p.fields.runId, p.completedNode, p.nextNode, codecVersion,
    privacyRevision, p.stateBlob, p.payloadSha256⟩

/-- The columns a commit sets. -/
def PreparedBoundary.advance (p : PreparedBoundary) (seq : Nat) (snapshotId : String)
    (t : ThreadRow) : ThreadRow :=
  ⟨p.fields, t.threadId, some seq, some snapshotId, t.tombstonedAt⟩

theorem PreparedBoundary.threadId_advance (p : PreparedBoundary) (seq : Nat) (snapshotId : String)
    (t : ThreadRow) : (p.advance seq snapshotId t).threadId = t.threadId := rfl

/-- The transaction of `commit_boundary_sync`. -/
def commitTxn (p : PreparedBoundary) (expected : Option Int) (u : BitVec 128) :
    StoreTxn SnapshotCursor := do
  let (current, parent) ← openThread p expected
  let seq := (current.elim 0 id) + 1
  insertSnapshot (p.row seq (newSnapshotId u) parent)
  Txn.modify (updateOwner p.threadId (p.advance seq (newSnapshotId u)) (p.threadId_advance _ _))
  return ⟨p.threadId, seq, newSnapshotId u⟩

/-- `commit_boundary_sync` -/
def SnapshotCodec.commitBoundary (state : PyDict) (completedNode nextNode : String)
    (expected : Option Int) (u : BitVec 128) (db : SnapshotDb) :
    Except SnapshotError SnapshotCursor × SnapshotDb :=
  match C.prepareBoundary state completedNode nextNode with
  | .error e => (.error e, db)
  | .ok p => Txn.unitOfWork (commitTxn p expected u) none db

/-- The row of a deleted thread. -/
def ThreadRow.tombstone (now : ℚ) (t : ThreadRow) : ThreadRow :=
  ⟨{ t.toStateFields with status := "deleted", resumable := false }, t.threadId, none, none, some now⟩

theorem ThreadRow.threadId_tombstone (now : ℚ) (t : ThreadRow) :
    (t.tombstone now).threadId = t.threadId := rfl

/-- The transaction of `delete_thread_sync`. -/
def deleteTxn (thread : String) (now : ℚ) : StoreTxn Unit := do
  let db ← Txn.read
  match db.threads.find? thread with
  | none => insertThread ⟨{ noFields with status := "deleted" }, thread, none, none, some now⟩
  | some _ =>
      Txn.modify (deleteSnapshots thread)
      Txn.modify (updateOwner thread (ThreadRow.tombstone now) (ThreadRow.threadId_tombstone now))

/-- `delete_thread_sync` -/
def deleteThread (thread : String) (now : ℚ) (db : SnapshotDb) :
    Except SnapshotError Unit × SnapshotDb :=
  if strip thread = "" then (.ok (), db) else Txn.unitOfWork (deleteTxn (strip thread) now) none db

/-! ### Copies -/

/-- Where the copy of a thread stands: the sequence it expects, the boundary it copied
last, the copies by the boundary they were made of, and the copy it made last. -/
structure CopyCursor where
  expectedSeq : Nat
  lastSourceId : String
  idMap : List (String × String)
  headId : String

/-- Nothing copied: no parent stands for itself. -/
def CopyCursor.start : CopyCursor := ⟨1, "", [("", "")], ""⟩

/-- The live thread a copy starts from, with its head. -/
def copySource (db : SnapshotDb) (source : String) : Except SnapshotError (ThreadRow × Nat) :=
  match db.threads.find? source with
  | some t =>
      match t.tombstonedAt, t.headSeq with
      | none, some n => .ok (t, n)
      | _, _ => .error (.value s!"source snapshot thread does not exist: {source}")
  | none => .error (.value s!"source snapshot thread does not exist: {source}")

/-- What both copies check of a boundary: its place in the chain, its codec and its
checksum.  The result is its state. -/
def SnapshotCodec.verifiedState (r : SnapshotRow) (expectedSeq : Nat) (expectedParent : String) :
    Except SnapshotError Doc := do
  require (r.seq = expectedSeq) (.unavailable "snapshot copy source has a sequence gap")
  require (r.parentSnapshotId = expectedParent)
    (.unavailable "snapshot copy source has broken ancestry")
  require (r.privacyRevision = AgentEngine.privacyRevision)
    (.unavailable "snapshot copy source has an unsupported privacy revision")
  let state ← C.decodeState r.stateBlob r.codecVersion
  require (C.payloadChecksum state r.completedNode r.nextNode r.codecVersion r.privacyRevision =
      r.payloadSha256)
    (.unavailable s!"cannot copy corrupt native snapshot: {r.snapshotId}")
  return state

/-- The state of a boundary belongs to its thread. -/
def SnapshotCodec.ownedBy (state : Doc) (r : SnapshotRow) (thread : String) :
    Except SnapshotError Unit :=
  require (C.stateThreadId state = thread)
    (.unavailable s!"cannot copy snapshot with mismatched thread: {r.snapshotId}")

/-- A boundary of the source, encoded under the thread of the copy. -/
def SnapshotCodec.copiedState (source target : String) (r : SnapshotRow) (c : CopyCursor) :
    Except SnapshotError EncodedSnapshot := do
  let state ← C.verifiedState r c.expectedSeq c.lastSourceId
  C.ownedBy state r source
  C.encodeSnapshot (entriesToPy (Dict.set state "thread_id" (.str target))) r.completedNode r.nextNode

/-- One boundary of `copy_thread_sync`. -/
def SnapshotCodec.copyRow (source target : String) (r : SnapshotRow) (u : BitVec 128)
    (c : CopyCursor) : StoreTxn CopyCursor := do
  let e ← Txn.lift (C.copiedState source target r c)
  match Dict.get? c.idMap r.parentSnapshotId with
  | none => Txn.raise (.unavailable "snapshot copy parent is missing")
  | some parent =>
      insertSnapshot ⟨target, r.seq, newSnapshotId u, parent, r.runId, r.completedNode, r.nextNode,
        codecVersion, privacyRevision, e.stateBlob, e.payloadSha256⟩
      return ⟨c.expectedSeq + 1, r.snapshotId, Dict.set c.idMap r.snapshotId (newSnapshotId u),
        newSnapshotId u⟩

/-- The boundaries of `copy_thread_sync`, in order. -/
def SnapshotCodec.copyRows (source target : String) (ids : Nat → BitVec 128) :
    List SnapshotRow → CopyCursor → StoreTxn CopyCursor
  | [], c => pure c
  | r :: rs, c => C.copyRow source target r (ids r.seq) c >>= copyRows source target ids rs

/-- The transaction of `copy_thread_sync`. -/
def SnapshotCodec.copyTxn (source target : String) (ids : Nat → BitVec 128) : StoreTxn Unit := do
  let db ← Txn.read
  let (t, head) ← Txn.lift (copySource db source)
  Txn.ensure (db.threads.find? target = none)
    (.value s!"target snapshot thread already exists: {target}")
  insertThread ⟨t.toStateFields, target, none, none, none⟩
  let c ← C.copyRows source target ids (db.boundaries source) CopyCursor.start
  Txn.ensure (c.expectedSeq = head + 1 ∧ c.lastSourceId = t.headSnapshotId.getD "")
    (.unavailable "snapshot copy source head is inconsistent")
  Txn.modify (setHead target head c.headId)

/-- `copy_thread_sync` -/
def SnapshotCodec.copyThread (source target : String) (ids : Nat → BitVec 128) (db : SnapshotDb) :
    Except SnapshotError Unit × SnapshotDb :=
  if strip source = "" ∨ strip target = "" then
    (.error (.value "source and target thread ids are required"), db)
  else if strip source = strip target then (.ok (), db)
  else Txn.unitOfWork (C.copyTxn (strip source) (strip target) ids) none db

/-- The identities a prefix copy gives its boundaries. -/
structure CopyTarget where
  threadId : String
  runId : String
  chatId : String

/-- `str(state.get(key) or "") in {"", source_run_id}` -/
def SnapshotCodec.ownRun (entries : Doc) (key sourceRun : String) : Bool :=
  let run := C.field entries key
  decide (run = "" ∨ run = sourceRun)

/-- The task of a state, under the run of the copy. -/
def SnapshotCodec.retaskedState (target : CopyTarget) (sourceRun : String) (state : Doc) : Doc :=
  match Dict.get? state "task" with
  | some (.obj task) =>
      Dict.set state "task" (.obj
        (if C.ownRun task "task_id" sourceRun then Dict.set task "task_id" (.str target.runId)
        else task))
  | _ => state

/-- A state, under the identities of the copy. -/
def SnapshotCodec.retargetedState (target : CopyTarget) (sourceRun : String) (state : Doc) : Doc :=
  let state := Dict.set state "thread_id" (.str target.threadId)
  let state :=
    if C.ownRun state "run_id" sourceRun then Dict.set state "run_id" (.str target.runId) else state
  let state :=
    if target.chatId ≠ "" ∨ (Dict.get? state "chat_id").isSome then
      Dict.set state "chat_id" (.str target.chatId)
    else state
  C.retaskedState target sourceRun state

/-- A prepared boundary of a prefix copy. -/
structure PreparedCopy where
  sequence : Nat
  sourceSnapshotId : String
  sourceParentId : String
  completedNode : String
  nextNode : String
  stateBlob : Doc
  payloadSha256 : String
  fields : StateFields

/-- One boundary of the prefix, verified and encoded again. -/
def SnapshotCodec.prepareCopy (sourceThread sourceRun : String) (target : CopyTarget)
    (r : SnapshotRow) (expectedSeq : Nat) (expectedParent : String) :
    Except SnapshotError PreparedCopy := do
  let state ← C.verifiedState r expectedSeq expectedParent
  C.validateRunState state r.completedNode r.nextNode
  C.ownedBy state r sourceThread
  let e ← C.encodeSnapshot (entriesToPy (C.retargetedState target sourceRun state)) r.completedNode
    r.nextNode
  return ⟨r.seq, r.snapshotId, r.parentSnapshotId, r.completedNode, r.nextNode, e.stateBlob,
    e.payloadSha256, C.stateFields e.normalized⟩

/-- The boundaries of the prefix, in order. -/
def SnapshotCodec.prepareCopies (sourceThread sourceRun : String) (target : CopyTarget) :
    List SnapshotRow → Nat → String → Except SnapshotError (List PreparedCopy)
  | [], _, _ => .ok []
  | r :: rs, expectedSeq, expectedParent => do
      let p ← C.prepareCopy sourceThread sourceRun target r expectedSeq expectedParent
      let ps ← prepareCopies sourceThread sourceRun target rs (expectedSeq + 1) r.snapshotId
      return p :: ps

/-- One insertion of a prefix copy: the map of the ids, and the copy made last. -/
def insertCopy (target : String) (p : PreparedCopy) (u : BitVec 128) (idMap : List (String × String)) :
    StoreTxn (List (String × String)) := do
  match Dict.get? idMap p.sourceParentId with
  | none => Txn.raise (.unavailable "snapshot prefix copy parent is missing")
  | some parent =>
      insertSnapshot ⟨target, p.sequence, newSnapshotId u, parent, p.fields.runId, p.completedNode,
        p.nextNode, codecVersion, privacyRevision, p.stateBlob, p.payloadSha256⟩
      return Dict.set idMap p.sourceSnapshotId (newSnapshotId u)

/-- The insertions of a prefix copy, in order, and the copy made last. -/
def insertCopies (target : String) (ids : Nat → BitVec 128) :
    List PreparedCopy → List (String × String) → String → StoreTxn String
  | [], _, headId => pure headId
  | p :: ps, idMap, _ => do
      let idMap ← insertCopy target p (ids p.sequence) idMap
      insertCopies target ids ps idMap (newSnapshotId (ids p.sequence))

/-- The boundary a cursor names. -/
def SnapshotDb.select (db : SnapshotDb) (cursor : SnapshotCursor) : Option SnapshotRow :=
  (db.rowsOf cursor.threadId).find? fun r =>
    decide (r.seq = cursor.sequence ∧ r.snapshotId = cursor.snapshotId)

/-- The target of a prefix copy is a new thread. -/
def checkTarget (db : SnapshotDb) (target : String) : Except SnapshotError Unit :=
  match db.threads.find? target with
  | some t =>
      if t.tombstonedAt.isSome then
        .error ⟨.tombstoned, s!"snapshot prefix target is deleted: {target}"⟩
      else .error (.value s!"target snapshot thread already exists: {target}")
  | none => .ok ()

/-- What a prefix copy reads and prepares before it writes. -/
def SnapshotCodec.preparePrefix (db : SnapshotDb) (source : SnapshotCursor) (target : CopyTarget) :
    Except SnapshotError (List PreparedCopy × StateFields) := do
  let (t, head) ← copySource db source.threadId
  require (source.sequence ≤ head)
    (.unavailable "source snapshot cursor is newer than the thread head")
  require (db.select source).isSome
    (.unavailable "source snapshot cursor does not identify one exact boundary")
  checkTarget db target.threadId
  let rows := (db.boundaries source.threadId).filter fun r => r.seq ≤ source.sequence
  require (rows.length = source.sequence) (.unavailable "snapshot prefix source has a sequence gap")
  let prepared ← C.prepareCopies source.threadId t.runId target rows 1 ""
  match prepared.getLast? with
  | none => .error (.unavailable "snapshot prefix source is empty")
  | some selected => do
      require (selected.fields.resumable && selected.nextNode ≠ "end")
        (.unavailable "terminal native snapshot cannot seed a resumable fork")
      return (prepared, selected.fields)

/-- The transaction of `copy_thread_through_sync`. -/
def SnapshotCodec.copyThroughTxn (source : SnapshotCursor) (target : CopyTarget)
    (ids : Nat → BitVec 128) : StoreTxn SnapshotCursor := do
  let db ← Txn.read
  let (prepared, fields) ← Txn.lift (C.preparePrefix db source target)
  insertThread ⟨fields, target.threadId, none, none, none⟩
  let headId ← insertCopies target.threadId ids prepared [("", "")] ""
  Txn.modify (setHead target.threadId source.sequence headId)
  return ⟨target.threadId, source.sequence, headId⟩

/-- `copy_thread_through_sync` -/
def SnapshotCodec.copyThreadThrough (source : SnapshotCursor) (target : CopyTarget)
    (ids : Nat → BitVec 128) (db : SnapshotDb) : Except SnapshotError SnapshotCursor × SnapshotDb :=
  let source := ⟨strip source.threadId, source.sequence, strip source.snapshotId⟩
  let target := ⟨strip target.threadId, strip target.runId, strip target.chatId⟩
  if source.threadId = "" ∨ source.snapshotId = "" ∨ source.sequence < 1 then
    (.error (.value "source cursor is incomplete"), db)
  else if target.threadId = "" ∨ target.runId = "" then
    (.error (.value "target thread and run ids are required"), db)
  else if source.threadId = target.threadId then
    (.error (.value "snapshot prefix target must be a new thread"), db)
  else Txn.unitOfWork (C.copyThroughTxn source target ids) none db

/-! ## 6.  Loading -/

/-- `StoredRunSnapshot` -/
structure StoredRunSnapshot where
  cursor : SnapshotCursor
  parentSnapshotId : String
  runId : String
  source : String
  status : String
  completedNode : String
  nextNode : String
  state : Doc

/-- The first field of a state that its column does not agree with.  The columns are those of the thread; an
older boundary may have another status than its thread, and is compared with the run it was captured in. -/
def indexMismatch (fields : StateFields) (t : ThreadRow) (r : SnapshotRow) (historical : Bool) :
    Option String :=
  let columns := [("run_id", fields.runId, if historical then r.runId else t.runId),
    ("source", fields.source, t.source), ("chat_id", fields.chatId, t.chatId)]
  let columns := if historical then columns else columns ++ [("status", fields.status, t.status)]
  (columns.find? fun c => c.2.1 ≠ c.2.2).map (·.1)

/-- `_stored_from_row` -/
def SnapshotCodec.storedFromRow (t : ThreadRow) (r : SnapshotRow) (historical : Bool) :
    Except SnapshotError StoredRunSnapshot := do
  require (r.privacyRevision = AgentEngine.privacyRevision)
    (.unavailable s!"unsupported native snapshot privacy revision: {r.privacyRevision}")
  let state ← C.decodeState r.stateBlob r.codecVersion
  require (C.payloadChecksum state r.completedNode r.nextNode r.codecVersion r.privacyRevision =
      r.payloadSha256)
    (.unavailable s!"native snapshot checksum mismatch: {r.snapshotId}")
  let (privacyState, removed) ← C.scrubEntries (C.imageSource (entriesToPy state)) (entriesToPy state) "$"
  -- the scrubbed entries stand in the order of the state's, so their texts decide equality
  require (decide (removed = 0) && decide (Json.dumps (.obj privacyState) = Json.dumps (.obj state)))
    (.unavailable s!"native snapshot violates privacy revision: {r.snapshotId}")
  C.validateRunState state r.completedNode r.nextNode
  require (C.stateThreadId state = t.threadId)
    (.unavailable s!"native snapshot thread identity mismatch: {r.snapshotId}")
  let fields := C.stateFields state
  match indexMismatch fields t r historical with
  | some field => throw (.unavailable s!"native snapshot {field} index mismatch: {r.snapshotId}")
  | none =>
      return { cursor := ⟨t.threadId, r.seq, r.snapshotId⟩, parentSnapshotId := r.parentSnapshotId,
               runId := if historical then fields.runId else t.runId,
               source := if historical then fields.source else t.source,
               status := if historical then fields.status else t.status,
               completedNode := r.completedNode, nextNode := r.nextNode, state := state }

/-- A thread that is not deleted. -/
def SnapshotDb.liveThread (db : SnapshotDb) (thread : String) : Option ThreadRow :=
  (db.threads.find? thread).filter fun t => t.tombstonedAt.isNone

/-- The boundary of a thread that one of its rows is, if there is one. -/
def SnapshotCodec.loadRow (t : ThreadRow) (historical : Bool) :
    Option SnapshotRow → Except SnapshotError (Option StoredRunSnapshot)
  | none => .ok none
  | some r => (C.storedFromRow t r historical).map some

/-- `load_head_sync` -/
def SnapshotCodec.loadHead (db : SnapshotDb) (thread : String) :
    Except SnapshotError (Option StoredRunSnapshot) :=
  match db.liveThread thread with
  | none => .ok none
  | some t => C.loadRow t false
      ((db.rowsOf thread).find? fun r =>
        decide (some r.seq = t.headSeq ∧ some r.snapshotId = t.headSnapshotId))

/-- `load_cursor_sync` -/
def SnapshotCodec.loadCursor (db : SnapshotDb) (cursor : SnapshotCursor) :
    Except SnapshotError (Option StoredRunSnapshot) :=
  let cursor : SnapshotCursor := ⟨strip cursor.threadId, cursor.sequence, strip cursor.snapshotId⟩
  if cursor.threadId = "" ∨ cursor.snapshotId = "" ∨ cursor.sequence < 1 then
    .error (.value "snapshot cursor must be exact and positive")
  else
    match db.liveThread cursor.threadId with
    | none => .ok none
    | some t => C.loadRow t true (db.select cursor)

/-! ## 7.  The index read -/

namespace ContextIndex

/-- `COALESCE(MAX(ordinal),0)` of the boundaries of a chat. -/
def through (ix : ContextIndex) (chat : String) : Nat :=
  ((ix.order.filter fun o => o.chatId = chat).map (·.ordinal)).foldr max 0

/-- The epoch of a chat. -/
def epoch (ix : ContextIndex) (chat : String) : Nat := (Dict.get? ix.scope chat).getD 0

end ContextIndex

/-- `context_boundary`: the largest ordinal of the chat, and its epoch. -/
def SnapshotDb.contextBoundary (db : SnapshotDb) (chat : String) : Nat × Nat :=
  match db.index with
  | none => (0, 0)
  | some ix => (ix.through chat, ix.epoch chat)

/-- A row of a page. -/
structure ContextRow where
  ordinal : Nat
  threadId : String
  sequence : Nat
  snapshotId : String
  parentSnapshotId : String
  runId : String
  source : String
  completedNode : String
  nextNode : String
  deriving DecidableEq, Repr

/-- An order row joined with its live thread and its boundary. -/
def SnapshotDb.join (db : SnapshotDb) (o : OrderRow) : Option ContextRow :=
  match db.liveThread o.threadId, db.select ⟨o.threadId, o.sequence, o.snapshotId⟩ with
  | some t, some r =>
      some ⟨o.ordinal, t.threadId, r.seq, r.snapshotId, r.parentSnapshotId, r.runId, t.source,
        r.completedNode, r.nextNode⟩
  | _, _ => none

/-- The rows of a chat between two ordinals, in increasing ordinal. -/
def SnapshotDb.contextRows (db : SnapshotDb) (chat : String) (after through : Nat) :
    List ContextRow :=
  match db.index with
  | none => []
  | some ix =>
      ((ix.order.filter fun o => decide (o.chatId = chat ∧ after < o.ordinal ∧ o.ordinal ≤ through)).insertionSort
        fun o o' => o.ordinal ≤ o'.ordinal).filterMap db.join

/-- `context_commit_page` -/
def SnapshotDb.contextCommitPage (db : SnapshotDb) (chat : String) (after through limit : Nat) :
    List ContextRow :=
  (db.contextRows chat after through).take (max 1 (min limit 200))

/-! ## 8.  Runs -/

/-- What is done to a store. -/
inductive SnapshotOp where
  | commit (state : PyDict) (completedNode nextNode : String) (expected : Option Int)
      (u : BitVec 128)
  | copy (source target : String) (ids : Nat → BitVec 128)
  | copyThrough (source : SnapshotCursor) (target : CopyTarget) (ids : Nat → BitVec 128)
  | delete (thread : String) (now : ℚ)
  /-- The first reading of the index by a process. -/
  | initIndex

/-- What an operation returns. -/
inductive SnapshotReply where
  | done
  | committed (cursor : SnapshotCursor)
  | raised (e : SnapshotError)
  deriving DecidableEq, Repr

/-- The reply to an operation without a result. -/
def doneReply : Except SnapshotError Unit → SnapshotReply
  | .ok () => .done
  | .error e => .raised e

/-- The reply to an operation that returns a cursor. -/
def cursorReply : Except SnapshotError SnapshotCursor → SnapshotReply
  | .ok cursor => .committed cursor
  | .error e => .raised e

/-- One operation. -/
def SnapshotCodec.stepStore : SnapshotOp → SnapshotDb → SnapshotReply × SnapshotDb
  | .commit state completedNode nextNode expected u, db =>
      (C.commitBoundary state completedNode nextNode expected u db).map cursorReply id
  | .copy source target ids, db => (C.copyThread source target ids db).map doneReply id
  | .copyThrough source target ids, db => (C.copyThreadThrough source target ids db).map cursorReply id
  | .delete thread now, db => (deleteThread thread now db).map doneReply id
  | .initIndex, db => (.done, db.initIndex)

/-- A store under any writers: each operation is one transaction, so they take turns. -/
def SnapshotCodec.snapshotStore : Machine SnapshotDb SnapshotOp SnapshotReply :=
  ⟨SnapshotDb.empty, C.stepStore⟩

/-- A state of a chat run that passes its checks. -/
def chatState (thread run chat : String) : PyDict :=
  [("run_id", .str run), ("state_schema_version", .int 1), ("graph_revision", .str "chat.ipython.v2"),
    ("action_surface", .str actionSurface),
    ("provider_tool_schema_revision", .str ipythonSchemaRevision), ("source", .str "chat"),
    ("status", .str "running"), ("thread_id", .str thread), ("chat_id", .str chat)]

/-- A commit after a model step, with the low bits of its identifier. -/
def modelStep (thread run chat : String) (expected : Option Int) (u : Nat) : SnapshotOp :=
  .commit (chatState thread run chat) "loop_init" "model_step" expected (BitVec.ofNat 128 u)

end AgentEngine
end VariantOne
