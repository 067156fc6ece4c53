import VariantOne.Lib.Txn
import VariantOne.SessionRuntime.Budgets

/-!
# Child sessions

A child is a row that names its chat, the chat it was spawned under and the
*generation* of its run.  A run claims the row and finishes it; a restart opens
the next generation.  The rows, the messages between a child and its parent and
the budgets of the chats are in one database, and what is done to them is done
in short transactions: these are here.

Routes, scopes, reports of outcomes and the clock of the change events are left
out; no transaction here decides on them.

Each transaction has a lemma that says what it can do when it returns: `birth_ok`, `spawn_cases`,
`finishTxn_ok` and `restartTxn_ok`.  A repeated request is answered from what its first call wrote, under
a key that is made of the request.
-/

namespace VariantOne
namespace SessionCatalog

open SessionRuntime (Accounts Amounts ChatRuntimeRecord RuntimeIdentity SessionError amount budgetKeys)

/-! ## 1.  Rows -/

inductive ChildStatus where
  | queued | running | interrupted | completed | failed | cancelled
  deriving DecidableEq, Repr

/-- The text of a status. -/
def ChildStatus.text : ChildStatus → String
  | queued => "queued"
  | running => "running"
  | interrupted => "interrupted"
  | completed => "completed"
  | failed => "failed"
  | cancelled => "cancelled"

/-- `{"completed", "failed", "cancelled"}` -/
def ChildStatus.terminal : ChildStatus → Bool
  | completed | failed | cancelled => true
  | queued | running | interrupted => false

/-- `status IN ('queued','running')` -/
def ChildStatus.admitted : ChildStatus → Bool
  | queued | running => true
  | interrupted | completed | failed | cancelled => false

/-- `usage_rollup_state` -/
inductive RollupState where
  | pending | complete
  deriving DecidableEq, Repr

/-- `astb_child_handle`.  The usage is the object it is stored as. -/
structure ChildRow where
  childId : String
  childChatId : String
  parentChatId : String
  depth : Nat
  name : String
  taskText : String
  contextText : String
  status : ChildStatus
  resultText : String
  artifactRef : String
  error : String
  terminalReason : String
  usage : Amounts
  runGeneration : Nat
  usageRollupState : RollupState
  usageRollupError : String
  workJobId : String
  restartRequestId : String
  restartMessage : String
  deriving DecidableEq, Repr

abbrev ChildTable := Table ChildRow String fun row => row.childId

/-- `direction` -/
inductive Direction where
  | parentToChild | childToParent
  deriving DecidableEq, Repr

/-- `astb_child_message`. -/
structure ChildMessage where
  messageId : String
  childId : String
  direction : Direction
  text : String
  createdAt : ℚ
  consumedAt : Option ℚ
  deriving DecidableEq, Repr

abbrev MessageTable := Table ChildMessage String fun m => m.messageId

/-- The database of the sessions. -/
structure ChildDb where
  accounts : Accounts
  children : ChildTable
  messages : MessageTable

/-- `ChildSessionManager.capacity`, of the host as it is now. -/
structure Capacity where
  maxDepth : Nat
  maxActive : Nat
  maxAdmitted : Nat

/-- A new identifier is its own strip. -/
theorem strip_newId {kind : String} (hkind : kind.toList.any isSpace = false) (u : BitVec 128) :
    strip (newId kind u) = newId kind u ∧ newId kind u ≠ "" := by
  have hlist : (newId kind u).toList = kind.toList ++ '_' :: uuidHex u := by
    rw [newId, String.toList_append, String.toList_append, List.append_assoc, String.toList_ofList,
      String.toList_ofList]
    rfl
  constructor
  · refine strip_of_forall fun c hc => ?_
    rw [hlist, List.mem_append, List.mem_cons] at hc
    rcases hc with hc | rfl | hc
    · exact Bool.eq_false_iff.mpr fun hspace =>
        Bool.eq_false_iff.mp hkind (List.any_eq_true.mpr ⟨c, hc, hspace⟩)
    · decide
    · obtain ⟨i, -, rfl⟩ := List.mem_map.mp hc
      exact (digitChar_lt_sixteen (Nat.mod_lt _ (by decide))).1
  · intro hempty
    rw [hempty] at hlist
    exact absurd hlist (by simp)

namespace ChildDb

/-- `_row` -/
def row (db : ChildDb) (childId : String) : Option ChildRow := db.children.find? childId

/-- The child that owns a chat. -/
def owner (db : ChildDb) (chatId : String) : Option ChildRow :=
  db.children.rows.find? fun r => r.childChatId = chatId

/-- The children of a chat that count against its capacity. -/
def admitted (db : ChildDb) (parentChatId : String) : Nat :=
  (db.children.rows.filter fun r => r.parentChatId = parentChatId && r.status.admitted).length

/-- `UPDATE astb_child_handle SET … WHERE child_id=? AND …`: the rows, and `rowcount`. -/
def update (db : ChildDb) (childId : String) (cond : ChildRow → Bool) (f : ChildRow → ChildRow)
    (hf : ∀ r, (f r).childId = r.childId) : Nat × ChildDb :=
  ((db.children.rows.filter fun r => r.childId = childId && cond r).length,
    { db with children := db.children.updateWhere (fun r => r.childId = childId && cond r) f hf })

/-! ## 2.  Birth -/

/-- What `spawn` is given; a deterministic birth brings its identities along. -/
structure SpawnArgs where
  parentChatId : String
  task : String
  name : String
  context : String
  childId : String
  childChatId : String
  /-- The release and the environment digest of a fresh catalog. -/
  freshCatalog : Option (String × String)

/-- The id of the child: a uuid, unless it was brought along. -/
def SpawnArgs.birthId (a : SpawnArgs) (u : BitVec 128) : String :=
  if strip a.childId = "" then newId "child" u else strip a.childId

/-- The chat of the child. -/
def SpawnArgs.birthChat (a : SpawnArgs) (v : BitVec 128) : String :=
  if strip a.childChatId = "" then newId "childchat" v else strip a.childChatId

/-- A body on the database. -/
abbrev ChildBody (α : Type) := Txn ChildDb SessionError α

/-- `ACTION_SURFACE` -/
def actionSurface : String := "trusted-local.v1"

/-- The identity of a child runtime. -/
def childIdentity (parent : RuntimeIdentity) (freshCatalog : Option (String × String)) :
    RuntimeIdentity :=
  let inherited := { parent with
    actionSurface := actionSurface
    discoveryStateRef := ""
    mountRevision := parent.mountRevision.map fun _ => 0
    selectedCategoryId := ""
    overlayRevision := 0 }
  match freshCatalog with
  | none => inherited
  | some (release, digest) =>
      { inherited with catalogReleaseId := release, environmentDigest := digest }

/-- What is left of the budget of the parent. -/
def remainingLimits (parent : ChatRuntimeRecord) : Amounts :=
  (parent.budgetLimits.filter fun p => decide (0 < p.2)).map fun p =>
    (p.1, max 0 (p.2 - amount parent.budgetUsed p.1))

/-- `update_continuation` to `ready` with limits. -/
def limitsWrite (limits : Amounts) (now : ℚ) (r : ChatRuntimeRecord) : ChatRuntimeRecord :=
  { r with
    continuationState := "ready"
    budgetLimits := budgetKeys.filterMap fun key =>
      (Dict.get? limits key).map fun limit => (key, max 0 limit)
    budgetUsed := []
    updatedAt := now
    version := r.version + 1 }

theorem chatId_limitsWrite (limits : Amounts) (now : ℚ) (r : ChatRuntimeRecord) :
    (limitsWrite limits now r).chatId = r.chatId := rfl

/-- The marker of the birth of a child runtime. -/
def birthMarker (parentChatId : String) : String := s!"child:{parentChatId}"

/-- `ensure_runtime` with the marker of a birth. -/
def ensureChildRuntime (chatId : String) (identity : RuntimeIdentity) (marker : String) (now : ℚ) :
    ChildBody ChatRuntimeRecord := do
  let db ← Txn.read
  match db.accounts.registry.runtimes.find? chatId with
  | some record => return record
  | none =>
      let record := { SessionRuntime.newRuntime chatId identity now with creationSagaState := marker }
      match db.accounts.registry.runtimes.insert? record with
      | none => Txn.raise (.lookup s!"unknown chat runtime: {chatId}")
      | some runtimes =>
          Txn.modify fun db => { db with accounts.registry.runtimes := runtimes }
          return record

/-- Write the limits of a child runtime, if there are any. -/
def writeLimits (chatId : String) (limits : Amounts) (now : ℚ) (db : ChildDb) : ChildDb :=
  let written := db.accounts.registry.runtimes.updateWhere (fun r => r.chatId == chatId)
    (limitsWrite limits now) (chatId_limitsWrite limits now)
  if limits = [] then db else { db with accounts.registry.runtimes := written }

/-- `INSERT INTO astb_child_handle` -/
def insertChild (row : ChildRow) : ChildBody Unit := do
  let db ← Txn.read
  match db.children.insert? row with
  | none => Txn.raise (.runtime "UNIQUE constraint failed: astb_child_handle.child_id")
  | some children => Txn.modify fun db => { db with children := children }

/-- The row of a new child. -/
def newChild (a : SpawnArgs) (childId childChatId : String) (depth : Nat) : ChildRow where
  childId := childId
  childChatId := childChatId
  parentChatId := a.parentChatId
  depth := depth
  name := clip (if a.name = "" then "worker" else a.name) 80
  taskText := clip (strip a.task) 20000
  contextText := clip a.context 40000
  status := .queued
  resultText := ""
  artifactRef := ""
  error := ""
  terminalReason := ""
  usage := []
  runGeneration := 1
  usageRollupState := .complete
  usageRollupError := ""
  workJobId := ""
  restartRequestId := ""
  restartMessage := ""

/-- A row that a deterministic birth has made before. -/
def sameBirth (a : SpawnArgs) (existing : ChildRow) : Bool :=
  existing.parentChatId = a.parentChatId && existing.childChatId = strip a.childChatId &&
    existing.taskText = clip (strip a.task) 20000 && existing.contextText = clip a.context 40000

/-- The transaction of `spawn`: the runtime, its budget and the handle of a child.
`u` and `v` are the identifiers drawn for a birth without identities. -/
def birth (cap : Capacity) (parent : ChatRuntimeRecord) (a : SpawnArgs) (u v : BitVec 128) (now : ℚ) :
    ChildBody ChildRow := do
  let selectedId := strip a.childId
  let selectedChat := strip a.childChatId
  Txn.ensure ((selectedId = "") ↔ (selectedChat = ""))
    (.value "deterministic child_id and child_chat_id must be supplied together")
  let db ← Txn.read
  match if selectedId = "" then none else db.row selectedId with
  | some existing =>
      Txn.ensure (sameBirth a existing)
        (.runtime "deterministic child identity conflicts with an existing request")
      return existing
  | none =>
      let depth := ((db.owner a.parentChatId).elim 0 ChildRow.depth) + 1
      Txn.ensure (depth ≤ cap.maxDepth) (.runtime s!"child depth limit reached ({cap.maxDepth})")
      Txn.ensure (db.admitted a.parentChatId < cap.maxAdmitted)
        (.runtime s!"child admission-capacity limit reached ({cap.maxAdmitted})")
      let childId := a.birthId u
      let childChatId := a.birthChat v
      Txn.ensure (parent.identity.actionSurface = actionSurface)
        (.runtime "children require the current VARIANT-1 action surface")
      let identity := childIdentity parent.identity a.freshCatalog
      let runtime ← ensureChildRuntime childChatId identity (birthMarker a.parentChatId) now
      Txn.ensure (runtime.creationSagaState = birthMarker a.parentChatId)
        (.runtime "child runtime identity is owned by a different parent")
      Txn.ensure (runtime.lifecycleState = .active ∧ runtime.identity = identity)
        (.runtime "child runtime identity is not available for this creation")
      Txn.modify (writeLimits childChatId (remainingLimits parent) now)
      let row := newChild a childId childChatId depth
      insertChild row
      return row

/-- `chat_id_value` -/
def runtimeChat (value : String) : Except SessionError String :=
  if strip value = "" ∨ 256 < (strip value).length then
    .error (.value "chat_id must contain 1-256 characters")
  else if (strip value).toList.any (·.toNat < 32) then
    .error (.value "chat_id contains control characters")
  else .ok (strip value)

/-- `spawn`, up to the admission of its job.  `identity` is what `ensure_runtime` would give
a parent that is new. -/
def spawn (cap : Capacity) (identity : RuntimeIdentity) (a : SpawnArgs) (u v : BitVec 128) (now : ℚ)
    (db : ChildDb) : Except SessionError ChildRow × ChildDb :=
  if strip a.task = "" then (.error (.value "children.spawn requires a task"), db)
  else
    match runtimeChat a.parentChatId with
    | .error e => (.error e, db)
    | .ok chat =>
        match SessionRuntime.ensureRuntime chat identity now db.accounts.registry.runtimes with
        | (.error e, runtimes) => (.error e, { db with accounts.registry.runtimes := runtimes })
        | (.ok parent, runtimes) =>
            let db := { db with accounts.registry.runtimes := runtimes }
            if parent.continuationState = "paused_budget_exhausted" then
              (.error (.runtime "parent continuation budget is exhausted"), db)
            else Txn.unitOfWork (birth cap parent a u v now) none db

/-! ## 3.  Runs -/

/-- `status IN ('queued','running','interrupted')` -/
def claimable (r : ChildRow) : Bool := !r.status.terminal

/-- The claim of `_run`. -/
def claim (childId : String) (db : ChildDb) : Nat × ChildDb :=
  db.update childId claimable (fun r => { r with status := .running }) fun _ => rfl

/-- What a run hands to `_finish_child`. -/
structure Finish where
  status : ChildStatus
  usage : Amounts
  resultText : String
  artifactRef : String
  error : String
  terminalReason : String
  parentMessage : Bool

/-- What `_finish_child` writes. -/
def finishWrite (f : Finish) (r : ChildRow) : ChildRow :=
  { r with
    status := f.status
    resultText := f.resultText
    artifactRef := f.artifactRef
    error := clip f.error 2000
    terminalReason := clip f.terminalReason 80
    usage := f.usage
    usageRollupState := .pending
    usageRollupError := "" }

theorem childId_finishWrite (f : Finish) (r : ChildRow) : (finishWrite f r).childId = r.childId := rfl

/-- A row that a run is on. -/
def running (r : ChildRow) : Bool := r.status = .running

/-- Insert a message under a fresh identifier. -/
def insertMessage (m : ChildMessage) : ChildBody Unit := do
  let db ← Txn.read
  match db.messages.insert? m with
  | none => Txn.raise (.runtime "UNIQUE constraint failed: astb_child_message.message_id")
  | some messages => Txn.modify fun db => { db with messages := messages }

/-- Insert a message if a condition holds. -/
def insertMessageIf (c : Bool) (m : ChildMessage) : ChildBody Unit :=
  if c then insertMessage m else pure ()

/-- The transaction of `_finish_child`: `rowcount`. -/
def finishTxn (childId : String) (f : Finish) (u : BitVec 128) (now : ℚ) : ChildBody Nat := do
  let db ← Txn.read
  let (changed, db) := db.update childId running (finishWrite f) (childId_finishWrite f)
  Txn.modify fun _ => db
  insertMessageIf (decide (changed = 1) && f.parentMessage)
    ⟨newId "cmsg" u, childId, .childToParent, f.resultText, now, none⟩
  return changed

/-- What a restart writes. -/
def restartWrite (requestId message : String) (r : ChildRow) : ChildRow :=
  { r with
    restartRequestId := requestId
    restartMessage := message
    status := .queued
    resultText := ""
    terminalReason := ""
    artifactRef := ""
    error := ""
    usage := []
    runGeneration := r.runGeneration + 1
    usageRollupState := .complete
    usageRollupError := ""
    workJobId := "" }

theorem childId_restartWrite (requestId message : String) (r : ChildRow) :
    (restartWrite requestId message r).childId = r.childId := rfl

/-- The transaction of `restart`, for the row that was read before it. -/
def restartTxn (cap : Capacity) (seen : ChildRow) (requestId message : String) (u : BitVec 128)
    (now : ℚ) : ChildBody ChildRow := do
  let db ← Txn.read
  match db.row seen.childId with
  | none => Txn.raise (.type "'NoneType' object is not subscriptable")
  | some latest =>
      if requestId ≠ "" ∧ latest.restartRequestId = requestId then
        Txn.ensure (latest.restartMessage = message)
          (.runtime "restart request_id already has different guidance")
        return latest
      else
        Txn.ensure (latest.runGeneration = seen.runGeneration ∧ latest.status.admitted = false)
          (.runtime "child changed before restart; refresh its handle")
        insertMessageIf (message ≠ "")
          ⟨newId "cmsg" u, seen.childId, .parentToChild, clip message 20000, now, none⟩
        let db ← Txn.read
        Txn.ensure (db.admitted seen.parentChatId < cap.maxAdmitted)
          (.runtime s!"child admission-capacity limit reached ({cap.maxAdmitted})")
        Txn.modify fun db => (db.update seen.childId (fun _ => true) (restartWrite requestId message)
          (childId_restartWrite requestId message)).2
        return restartWrite requestId message latest

/-- The usage of a generation that never ran. -/
def emptyUsage : Amounts :=
  [("cost_usd", 0), ("llm_calls", 0), ("total_tokens", 0), ("wall_time_s", 0)]

/-- What a cancel writes. -/
def cancelWrite (r : ChildRow) : ChildRow :=
  { r with
    status := .cancelled
    error := "cancelled by parent"
    usage := if r.usage = [] then emptyUsage else r.usage
    usageRollupState := .complete
    usageRollupError := "" }

/-- The update of `cancel`. -/
def cancelQueued (childId : String) (db : ChildDb) : Nat × ChildDb :=
  db.update childId (fun r => r.status = .queued) cancelWrite fun _ => rfl

/-! ## 4.  What they do to the tables -/

section Effects

variable {db db' : ChildDb}

/-- What the birth of a child leaves behind. -/
structure Born (a : SpawnArgs) (u v : BitVec 128) (db : ChildDb) (row : ChildRow) (db' : ChildDb) :
    Prop where
  born : ∃ depth, row = newChild a (a.birthId u) (a.birthChat v) depth
  fresh : db.row (a.birthId u) = none
  children : db'.children.rows = db.children.rows ++ [row]
  messages : db'.messages = db.messages
  charges : db'.accounts.charges = db.accounts.charges
  others : ∀ chat, chat ≠ a.birthChat v →
    db'.accounts.registry.runtimes.find? chat = db.accounts.registry.runtimes.find? chat
  runtime : ∃ r, db'.accounts.registry.runtimes.find? (a.birthChat v) = some r ∧
    r.creationSagaState = birthMarker a.parentChatId ∧
    (r.budgetUsed = [] ∨ db.accounts.registry.runtimes.find? (a.birthChat v) = some r)
  /-- A runtime that was there is one of this birth. -/
  owned : ∀ r, db.accounts.registry.runtimes.find? (a.birthChat v) = some r →
    r.creationSagaState = birthMarker a.parentChatId

/-- The runtime of a child: the one that is there, or a new one. -/
theorem ensureChildRuntime_ok {chatId marker : String} {identity : RuntimeIdentity} {now : ℚ}
    {record : ChatRuntimeRecord}
    (h : (ensureChildRuntime chatId identity marker now).run db = .ok (record, db')) :
    db'.children = db.children ∧ db'.messages = db.messages ∧
      db'.accounts.charges = db.accounts.charges ∧
      db'.accounts.registry.runtimes.find? chatId = some record ∧
      (record.budgetUsed = [] ∨ db.accounts.registry.runtimes.find? chatId = some record) ∧
      (∀ r, db.accounts.registry.runtimes.find? chatId = some r → r = record) ∧
      ∀ chat, chat ≠ chatId →
        db'.accounts.registry.runtimes.find? chat = db.accounts.registry.runtimes.find? chat := by
  unfold ensureChildRuntime at h
  rw [Txn.run_read_bind] at h
  split at h
  · rename_i found hfound
    obtain ⟨rfl, rfl⟩ := Txn.run_pure_eq_ok.mp h
    exact ⟨rfl, rfl, rfl, hfound, .inr hfound,
      fun r hr => Option.some.inj (hr.symm.trans hfound), fun _ _ => rfl⟩
  · dsimp only at h
    split at h
    · exact absurd h (by simp)
    · rename_i hnone _ runtimes hinsert
      obtain ⟨_, _, hmodify, h⟩ := Txn.run_bind_eq_ok.mp h
      obtain ⟨-, rfl⟩ := Prod.mk.inj (Except.ok.inj hmodify)
      obtain ⟨rfl, rfl⟩ := Txn.run_pure_eq_ok.mp h
      have hfind := Table.find?_of_rows_append (Table.insert?_eq_some hinsert).2
      refine ⟨rfl, rfl, rfl, ?_, .inl rfl, fun r hr => absurd (hnone.symm.trans hr) (by simp),
        fun chat hchat => ?_⟩
      · exact (hfind chatId).trans (if_pos rfl)
      · exact (hfind chat).trans (if_neg (Ne.symm hchat))

theorem writeLimits_eq (chatId : String) (limits : Amounts) (now : ℚ) (db : ChildDb) :
    (writeLimits chatId limits now db).children = db.children ∧
      (writeLimits chatId limits now db).messages = db.messages ∧
      (writeLimits chatId limits now db).accounts.charges = db.accounts.charges := by
  unfold writeLimits
  dsimp only
  split <;> exact ⟨rfl, rfl, rfl⟩

theorem find?_writeLimits (chatId : String) (limits : Amounts) (now : ℚ) (db : ChildDb) :
    (writeLimits chatId limits now db).accounts.registry.runtimes.find? chatId =
        (db.accounts.registry.runtimes.find? chatId).map
          (fun r => if limits = [] then r else limitsWrite limits now r) ∧
      ∀ chat, chat ≠ chatId → (writeLimits chatId limits now db).accounts.registry.runtimes.find? chat =
        db.accounts.registry.runtimes.find? chat := by
  unfold writeLimits
  dsimp only
  split
  · exact ⟨Option.map_id'.symm, fun _ _ => rfl⟩
  · have hfind := Table.find?_updateWhere db.accounts.registry.runtimes (fun r => r.chatId == chatId) _
      (chatId_limitsWrite limits now)
    refine ⟨(hfind chatId).trans ?_, fun chat hchat => (hfind chat).trans ?_⟩
    · refine Option.map_congr fun r hr => ?_
      rw [if_pos (by simpa using Table.key_of_find? hr)]
    · -- the row of another chat is not the one the limits are written to
      cases hrow : db.accounts.registry.runtimes.find? chat with
      | none => rfl
      | some r =>
          have hkey := Table.key_of_find? hrow
          simp [hkey, hchat]

/-- **The birth of a child** finds a deterministic child again, or makes a new one. -/
theorem birth_ok {cap : Capacity} {parent : ChatRuntimeRecord} {a : SpawnArgs} {u v : BitVec 128}
    {now : ℚ} {row : ChildRow} (h : (birth cap parent a u v now).run db = .ok (row, db')) :
    db' = db ∧ db.row (strip a.childId) = some row ∧ strip a.childId ≠ "" ∨
      Born a u v db row db' := by
  unfold birth at h
  dsimp only at h
  rw [Txn.run_ensure_bind_eq_ok, Txn.run_read_bind] at h
  obtain ⟨-, h⟩ := h
  split at h
  · rename_i existing hfound
    obtain ⟨-, h⟩ := Txn.run_ensure_bind_eq_ok.mp h
    obtain ⟨rfl, rfl⟩ := Txn.run_pure_eq_ok.mp h
    split at hfound
    · cases hfound
    · rename_i hid
      exact .inl ⟨rfl, hfound, hid⟩
  · obtain ⟨-, h⟩ := Txn.run_ensure_bind_eq_ok.mp h
    obtain ⟨-, h⟩ := Txn.run_ensure_bind_eq_ok.mp h
    obtain ⟨-, h⟩ := Txn.run_ensure_bind_eq_ok.mp h
    obtain ⟨runtime, db₁, hruntime, h⟩ := Txn.run_bind_eq_ok.mp h
    obtain ⟨hchildren, hmessages, hcharges, hfind, hused, hsame, hothers⟩ :=
      ensureChildRuntime_ok hruntime
    obtain ⟨hmarker, h⟩ := Txn.run_ensure_bind_eq_ok.mp h
    obtain ⟨-, h⟩ := Txn.run_ensure_bind_eq_ok.mp h
    obtain ⟨_, db₂, hmodify, h⟩ := Txn.run_bind_eq_ok.mp h
    obtain ⟨-, rfl⟩ := Prod.mk.inj (Except.ok.inj hmodify)
    obtain ⟨_, db₃, hinsert, h⟩ := Txn.run_bind_eq_ok.mp h
    obtain ⟨rfl, rfl⟩ := Txn.run_pure_eq_ok.mp h
    obtain ⟨hchildren', hmessages', hcharges'⟩ :=
      writeLimits_eq (a.birthChat v) (remainingLimits parent) now db₁
    obtain ⟨hlimits, hlimits'⟩ := find?_writeLimits (a.birthChat v) (remainingLimits parent) now db₁
    unfold insertChild at hinsert
    rw [Txn.run_read_bind] at hinsert
    split at hinsert
    · exact absurd hinsert (by simp)
    · rename_i children hins
      obtain ⟨-, rfl⟩ := Prod.mk.inj (Except.ok.inj hinsert)
      obtain ⟨hnone, hrows⟩ := Table.insert?_eq_some hins
      rw [hchildren', hchildren] at hnone hrows
      refine .inr ⟨⟨_, rfl⟩, hnone, hrows, hmessages'.trans hmessages, hcharges'.trans hcharges,
        fun chat hchat => (hlimits' chat hchat).trans (hothers chat hchat), ?_,
        fun r hr => hsame r hr ▸ hmarker⟩
      rw [hfind, Option.map_some] at hlimits
      refine ⟨_, hlimits, ?_⟩
      split
      · exact ⟨hmarker, hused⟩
      · exact ⟨hmarker, .inl rfl⟩

/-- **A spawn** may give the parent a runtime, and a child may be born then. -/
theorem spawn_cases {cap : Capacity} {identity : RuntimeIdentity} {a : SpawnArgs} {u v : BitVec 128}
    {now : ℚ} {x : Except SessionError ChildRow} (h : db.spawn cap identity a u v now = (x, db')) :
    db' = db ∨ ∃ chat parent runtimes, runtimeChat a.parentChatId = .ok chat ∧
      SessionRuntime.ensureRuntime chat identity now db.accounts.registry.runtimes =
        (parent, runtimes) ∧
      (db' = { db with accounts.registry.runtimes := runtimes } ∨ (∃ record, parent = .ok record) ∧
        ∃ row, Born a u v { db with accounts.registry.runtimes := runtimes } row db') := by
  unfold spawn at h
  split at h
  · exact .inl (Prod.mk.inj h).2.symm
  · split at h
    · exact .inl (Prod.mk.inj h).2.symm
    · rename_i chat hchat
      split at h
      · rename_i e runtimes hensure
        exact .inr ⟨chat, _, runtimes, hchat, hensure, .inl (Prod.mk.inj h).2.symm⟩
      · rename_i parent runtimes hensure
        refine .inr ⟨chat, _, runtimes, hchat, hensure, ?_⟩
        dsimp only at h
        split at h
        · exact .inl (Prod.mk.inj h).2.symm
        · cases x with
          | error e => exact .inl (Txn.unitOfWork_error h)
          | ok row =>
              rcases birth_ok (Txn.unitOfWork_ok.mp h).1 with ⟨rfl, -, -⟩ | hborn
              · exact .inl rfl
              · exact .inr ⟨⟨parent, rfl⟩, row, hborn⟩

/-! ### Rows that are there -/

theorem update_congr {db₁ : ChildDb} (h : db₁.children = db.children) (childId : String)
    (cond : ChildRow → Bool) (f : ChildRow → ChildRow) (hf : ∀ r, (f r).childId = r.childId) :
    (db₁.update childId cond f hf).1 = (db.update childId cond f hf).1 ∧
      (db₁.update childId cond f hf).2.children = (db.update childId cond f hf).2.children := by
  unfold update
  rw [h]
  exact ⟨rfl, rfl⟩

/-- `rowcount` is one exactly when the row is there and meets the condition. -/
theorem update_eq_one (db : ChildDb) (childId : String) (cond : ChildRow → Bool)
    (f : ChildRow → ChildRow) (hf : ∀ r, (f r).childId = r.childId) :
    (db.update childId cond f hf).1 = 1 ↔ ∃ r, db.row childId = some r ∧ cond r = true := by
  have hcount : (db.update childId cond f hf).1 =
      ((db.children.rows.filter fun r => r.childId = childId).filter cond).length := by
    rw [List.filter_filter]
    show (db.children.rows.filter _).length = _
    congr 1
    exact List.filter_congr fun r _ => Bool.and_comm _ _
  rw [hcount]
  cases hrow : db.row childId with
  | none =>
      have hnil : (db.children.rows.filter fun r => r.childId = childId) = [] := by
        rw [List.filter_eq_nil_iff]
        intro r hr hid
        exact Table.find?_eq_none_iff.mp hrow
          (List.mem_map.mpr ⟨r, hr, by simpa using hid⟩)
      simp [hnil]
  | some r =>
      obtain ⟨hmem, hid⟩ := Table.find?_eq_some_iff.mp hrow
      rw [filter_eq_singleton db.children.unique hmem hid]
      cases hcond : cond r <;> simp [hcond]

theorem insertMessageIf_ok {c : Bool} {m : ChildMessage} {x : Unit}
    (h : (insertMessageIf c m).run db = .ok (x, db')) :
    db'.children = db.children ∧ db'.accounts = db.accounts ∧
      db'.messages.rows = db.messages.rows ++ if c then [m] else [] := by
  unfold insertMessageIf at h
  cases c with
  | false =>
      obtain ⟨-, rfl⟩ := Txn.run_pure_eq_ok.mp h
      exact ⟨rfl, rfl, (List.append_nil _).symm⟩
  | true =>
      rw [if_pos rfl] at h
      unfold insertMessage at h
      rw [Txn.run_read_bind] at h
      split at h
      · exact absurd h (by simp)
      · rename_i messages hinsert
        obtain ⟨-, rfl⟩ := Prod.mk.inj (Except.ok.inj h)
        exact ⟨rfl, rfl, (Table.insert?_eq_some hinsert).2⟩

/-- **The end of a run** is written to a row that is running, with a message to the parent. -/
theorem finishTxn_ok {childId : String} {f : Finish} {u : BitVec 128} {now : ℚ} {n : Nat}
    (h : (finishTxn childId f u now).run db = .ok (n, db')) :
    n = (db.update childId running (finishWrite f) (childId_finishWrite f)).1 ∧
      db'.children = (db.update childId running (finishWrite f) (childId_finishWrite f)).2.children ∧
      db'.accounts = db.accounts ∧
      db'.messages.rows = db.messages.rows ++ if decide (n = 1) && f.parentMessage then
        [⟨newId "cmsg" u, childId, .childToParent, f.resultText, now, none⟩] else [] := by
  unfold finishTxn at h
  rw [Txn.run_read_bind] at h
  dsimp only at h
  obtain ⟨_, db₁, hmodify, h⟩ := Txn.run_bind_eq_ok.mp h
  obtain ⟨-, rfl⟩ := Prod.mk.inj (Except.ok.inj hmodify)
  obtain ⟨_, db₂, hinsert, h⟩ := Txn.run_bind_eq_ok.mp h
  obtain ⟨rfl, rfl⟩ := Txn.run_pure_eq_ok.mp h
  obtain ⟨hchildren, haccounts, hmessages⟩ := insertMessageIf_ok hinsert
  exact ⟨rfl, hchildren, haccounts, hmessages⟩

/-- **A restart** finds its request again, or opens the next generation of the row it has seen. -/
theorem restartTxn_ok {cap : Capacity} {seen r : ChildRow} {requestId message : String}
    {u : BitVec 128} {now : ℚ}
    (h : (restartTxn cap seen requestId message u now).run db = .ok (r, db')) :
    ∃ latest, db.row seen.childId = some latest ∧
      (db' = db ∧ r = latest ∧ requestId ≠ "" ∧ latest.restartRequestId = requestId ∨
        latest.runGeneration = seen.runGeneration ∧ latest.status.admitted = false ∧
          r = restartWrite requestId message latest ∧
          db'.children = (db.update seen.childId (fun _ => true) (restartWrite requestId message)
            (childId_restartWrite requestId message)).2.children ∧
          db'.accounts = db.accounts ∧
          db'.messages.rows = db.messages.rows ++ if message ≠ "" then
            [⟨newId "cmsg" u, seen.childId, .parentToChild, clip message 20000, now, none⟩]
            else []) := by
  unfold restartTxn at h
  rw [Txn.run_read_bind] at h
  split at h
  · exact absurd h (by simp)
  · rename_i latest hlatest
    refine ⟨latest, hlatest, ?_⟩
    split at h
    · rename_i hsame
      obtain ⟨-, h⟩ := Txn.run_ensure_bind_eq_ok.mp h
      obtain ⟨rfl, rfl⟩ := Txn.run_pure_eq_ok.mp h
      exact .inl ⟨rfl, rfl, hsame⟩
    · obtain ⟨hfence, h⟩ := Txn.run_ensure_bind_eq_ok.mp h
      obtain ⟨_, db₁, hinsert, h⟩ := Txn.run_bind_eq_ok.mp h
      obtain ⟨hchildren, haccounts, hmessages⟩ := insertMessageIf_ok hinsert
      rw [Txn.run_read_bind] at h
      obtain ⟨-, h⟩ := Txn.run_ensure_bind_eq_ok.mp h
      obtain ⟨_, db₂, hmodify, h⟩ := Txn.run_bind_eq_ok.mp h
      obtain ⟨-, rfl⟩ := Prod.mk.inj (Except.ok.inj hmodify)
      obtain ⟨rfl, rfl⟩ := Txn.run_pure_eq_ok.mp h
      refine .inr ⟨hfence.1, hfence.2, rfl, (update_congr hchildren _ _ _ _).2, haccounts, ?_⟩
      show db₁.messages.rows = _
      simpa using hmessages

end Effects

end ChildDb
end SessionCatalog
end VariantOne
