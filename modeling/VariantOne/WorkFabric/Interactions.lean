import VariantOne.Core.Document
import VariantOne.Lib.Machine
import VariantOne.WorkFabric.Events

/-!
# Interactions

An interaction is a question to the user and, once, its answer.  `InteractionService`
keeps one row for each and logs every version of it as an event of the aggregate
`interaction`.  Five writers settle a row: `resolve`, the deadline of `wait`, and
three bodies that run inside a transaction of the Goal service.

A request is known by its fingerprint, so a create that is repeated answers from the
row; what a caller answered is compared with what is read back of the row's JSON.

A Goal transaction is a list of these bodies and of the Goal's own events, and commits
as a whole.
-/

namespace VariantOne
namespace WorkFabric

/-! ## Rows and records -/

/-- `INTERACTION_STATES` -/
inductive InteractionStatus where
  | opened | answered | skipped | timedOut | dismissed | cancelled
  deriving DecidableEq, Repr

namespace InteractionStatus

/-- The text a state is stored and published as. -/
def text : InteractionStatus → String
  | opened => "open"
  | answered => "answered"
  | skipped => "skipped"
  | timedOut => "timed_out"
  | dismissed => "dismissed"
  | cancelled => "cancelled"

/-- `INTERACTION_TERMINAL_STATES` -/
def terminal : List InteractionStatus := [answered, skipped, timedOut, dismissed, cancelled]

/-- The terminal state of a name. -/
def terminal? (name : String) : Option InteractionStatus := terminal.find? fun s => s.text == name

end InteractionStatus

/-- The columns a row and its record have in common. -/
structure InteractionFields where
  interactionId : String
  kind : String
  ownerKind : String
  ownerId : String
  status : InteractionStatus
  prompt : String
  schema : List (String × Json)
  metadata : List (String × Json)
  scope : WorkScope
  requestFingerprint : String
  idempotencyKey : String
  version : Nat
  createdAt : ℚ
  updatedAt : ℚ

/-- A row of `work_interaction`. -/
structure InteractionRow extends InteractionFields where
  responseDoc : List (String × Json)
  expiresAt : Option ℚ
  resolvedAt : Option ℚ

/-- `InteractionRecord` -/
structure InteractionRecord extends InteractionFields where
  response : Json
  expiresAt : ℚ
  resolvedAt : ℚ

/-- `_from_row` -/
def InteractionRow.record (row : InteractionRow) : InteractionRecord where
  toInteractionFields := row.toInteractionFields
  response := (Dict.get? row.responseDoc "value").getD .null
  expiresAt := row.expiresAt.getD 0
  resolvedAt := row.resolvedAt.getD 0

/-- The database, with its interactions. -/
structure InteractionDb where
  work : Tables
  interactions : Table InteractionRow String (·.interactionId)

/-- A transaction body over the database. -/
abbrev Interact (α : Type) := Txn InteractionDb Raised α

/-- A body on the tables of the work fabric. -/
def onWork {α : Type} (x : Work α) : Interact α :=
  Txn.zoom InteractionDb.work (fun work t => { t with work := work }) x

/-- Two rows the unique index does not tell apart. -/
def sameKey (r r' : InteractionRow) : Prop :=
  r.idempotencyKey ≠ "" ∧ r.ownerKind = r'.ownerKind ∧ r.ownerId = r'.ownerId ∧ r.kind = r'.kind ∧
    r.idempotencyKey = r'.idempotencyKey

instance (r r' : InteractionRow) : Decidable (sameKey r r') := by
  unfold sameKey
  infer_instance

/-- `INSERT INTO work_interaction` -/
def insertInteractionRow (row : InteractionRow) : Interact Unit := do
  let t ← Txn.read
  Txn.ensure (∀ r ∈ t.interactions.rows, ¬ sameKey row r)
    (uniqueFailed "work_interaction.idempotency_key")
  match t.interactions.insert? row with
  | none => Txn.raise (uniqueFailed "work_interaction.interaction_id")
  | some interactions => Txn.modify fun t => { t with interactions := interactions }

/-- `SELECT * FROM work_interaction WHERE interaction_id=?`, of a row that is there. -/
def selectInteraction (interactionId : String) : Interact InteractionRecord := do
  let t ← Txn.read
  match t.interactions.find? interactionId with
  | none => Txn.raise ⟨.typeError, "'NoneType' object is not subscriptable"⟩
  | some row => pure row.record

/-! ## Creation -/

/-- The arguments of `create`. -/
structure InteractionArgs where
  kind : String
  prompt : String
  scope : WorkScope
  ownerKind : String
  ownerId : String
  schema : PyDict := []
  metadata : PyDict := []
  expiresAt : ℚ := 0
  idempotencyKey : String := ""
  interactionId : String := ""
  actor : WorkActor := .system
  correlationId : String := ""

/-- The arguments after cleaning. -/
structure CleanInteraction where
  kind : String
  prompt : String
  ownerKind : String
  owner : String
  key : String
  deriving DecidableEq

/-- `str(value or default).strip()[:limit]` -/
def clipped (value default : String) (limit : Nat) : String :=
  clip (strip (if value = "" then default else value)) limit

/-- The cleaning at the head of `create`. -/
def InteractionArgs.clean (a : InteractionArgs) : Except Raised CleanInteraction :=
  if strip a.prompt = "" then .error (valueError "interaction prompt is required")
  else if 20000 < (strip a.prompt).length then
    .error (valueError "interaction prompt exceeds 20000 characters")
  else .ok
    { kind := clipped a.kind "question" 120
      prompt := strip a.prompt
      ownerKind := clipped a.ownerKind "run" 120
      owner := clipped a.ownerId "unknown" 512
      key := clip (strip a.idempotencyKey) 512 }

/-- What the fingerprint of a request is taken of. -/
def interactionRequest (H : Host) (kind prompt : String) (schema metadata : PyDict)
    (scope : WorkScope) (ownerKind owner : String) (expiresAt : ℚ) : PyDict :=
  [("kind", .str kind), ("prompt", .str prompt), ("schema", .dict schema),
    ("metadata", .dict metadata), ("scope", .dict scope.toDict),
    ("owner", .dict [("kind", .str ownerKind), ("id", .str owner)]),
    ("expires_at", .float (H.floatText expiresAt))]

/-- The request of `create`. -/
def InteractionArgs.request (H : Host) (a : InteractionArgs) (c : CleanInteraction) : PyDict :=
  interactionRequest H c.kind c.prompt a.schema a.metadata a.scope c.ownerKind c.owner a.expiresAt

/-- The fingerprint of a request. -/
def interactionFingerprint (H : Host) (request : PyDict) : Except Raised String :=
  requestFingerprint H "work.interaction.request" (.dict request)

/-- The identity of a new interaction: the caller's, one derived from the idempotency
key, or a fresh one. -/
def InteractionArgs.identity (H : Host) (env : Env) (a : InteractionArgs) (c : CleanInteraction)
    (t : InteractionDb) : String :=
  if strip a.interactionId ≠ "" then strip a.interactionId
  else if c.key ≠ "" then
    "interaction_" ++ clip (H.sha256 (c.ownerKind.toList ++ Char.ofNat 0 :: c.owner.toList ++
      Char.ofNat 0 :: c.kind.toList ++ Char.ofNat 0 :: c.key.toList)) 32
  else newId "interaction" (env.uuid "interaction" (t.work.eventSequence + 1))

/-- The row an idempotency key already names. -/
def keyedInteraction (t : InteractionDb) (c : CleanInteraction) : Option InteractionRow :=
  if c.key = "" then none
  else t.interactions.rows.find? fun r =>
    r.ownerKind == c.ownerKind && r.ownerId == c.owner && r.kind == c.kind &&
      r.idempotencyKey == c.key

def identityReused : Raised :=
  ⟨.workConflict, "interaction identity was reused for a different request"⟩

def interactionKeyReused : Raised :=
  ⟨.workConflict, "interaction idempotency key was reused for another request"⟩

/-- `float(expires_at) or None` -/
def absentWhenZero (x : ℚ) : Option ℚ := if x = 0 then none else some x

/-- The event of a new interaction. -/
def requestedEvent (interactionId : String) (scope : WorkScope) (actor : WorkActor)
    (correlationId : String) (payload : PyDict) (createdAt : Option ℚ) : EventArgs where
  eventType := "interaction.requested"
  aggregateKind := "interaction"
  aggregateId := interactionId
  aggregateVersion := some 1
  scope := scope
  actor := some actor
  correlationId := correlationId
  payload := payload
  createdAt := createdAt

/-- A new row, open. -/
def openInteraction (interactionId kind ownerKind owner prompt : String)
    (schema metadata : List (String × Json)) (scope : WorkScope) (fingerprint key : String)
    (expiresAt : Option ℚ) (now : ℚ) : InteractionRow where
  interactionId := interactionId
  kind := kind
  ownerKind := ownerKind
  ownerId := owner
  status := .opened
  prompt := prompt
  schema := schema
  metadata := metadata
  scope := scope
  requestFingerprint := fingerprint
  idempotencyKey := key
  version := 1
  createdAt := now
  updatedAt := now
  responseDoc := []
  expiresAt := expiresAt
  resolvedAt := none

/-- The row and the event of a new interaction. -/
def insertInteraction (H : Host) (env : Env) (row : InteractionRow) (event : EventArgs) :
    Interact InteractionRecord := do
  insertInteractionRow row
  let _ ← onWork (insertEvent H env event)
  selectInteraction row.interactionId

/-- `InteractionService.create` -/
def createInteraction (H : Host) (env : Env) (a : InteractionArgs) : Interact InteractionRecord := do
  let c ← Txn.lift a.clean
  let fingerprint ← Txn.lift (interactionFingerprint H (a.request H c))
  let t ← Txn.read
  let identity := a.identity H env c t
  match t.interactions.find? identity with
  | some row =>
      Txn.ensure (row.requestFingerprint = fingerprint) identityReused
      pure row.record
  | none =>
      match keyedInteraction t c with
      | some row =>
          Txn.ensure (row.requestFingerprint = fingerprint) interactionKeyReused
          pure row.record
      | none =>
          let schema ← Txn.lift (storedDict a.schema)
          let metadata ← Txn.lift (storedDict a.metadata)
          insertInteraction H env
            (openInteraction identity c.kind c.ownerKind c.owner c.prompt schema metadata a.scope
              fingerprint c.key (absentWhenZero a.expiresAt) env.time)
            (requestedEvent identity a.scope a.actor a.correlationId
              [("kind", .str c.kind),
                ("owner", .dict [("kind", .str c.ownerKind), ("id", .str c.owner)]),
                ("expires_at", if a.expiresAt = 0 then .none
                  else .float (H.floatText a.expiresAt))] none)

/-- The arguments of `create_goal_input_tx`. -/
structure GoalInputArgs where
  interactionId : String
  goalId : String
  stepId : String
  prompt : String
  schema : PyDict
  scope : WorkScope
  actor : WorkActor
  correlationId : String
  now : Option ℚ

/-- The metadata of a goal input. -/
def GoalInputArgs.metadata (g : GoalInputArgs) : PyDict :=
  [("source", .str "goal"), ("title", .str "Goal input required"), ("goal_id", .str g.goalId),
    ("step_id", .str g.stepId)]

/-- The request of a goal input. -/
def GoalInputArgs.request (H : Host) (g : GoalInputArgs) : PyDict :=
  interactionRequest H "goal_input" g.prompt g.schema g.metadata g.scope "goal" g.goalId 0

/-- `create_goal_input_tx` -/
def createGoalInput (H : Host) (env : Env) (g : GoalInputArgs) : Interact InteractionRecord := do
  let now := g.now.getD env.time
  let schema ← Txn.lift (storedDict g.schema)
  let metadata ← Txn.lift (storedDict g.metadata)
  let fingerprint ← Txn.lift (interactionFingerprint H (g.request H))
  insertInteraction H env
    (openInteraction g.interactionId "goal_input" "goal" g.goalId g.prompt schema metadata g.scope
      fingerprint "" none now)
    (requestedEvent g.interactionId g.scope g.actor g.correlationId
      [("kind", .str "goal_input"), ("owner", .dict [("kind", .str "goal"), ("id", .str g.goalId)]),
        ("step_id", .str g.stepId)] (some now))

/-! ## Settlement -/

/-- `status=?, response_json=?, version=?, updated_at=?, resolved_at=?` -/
def settleChange (status : InteractionStatus) (doc : List (String × Json)) (version : Nat) (now : ℚ)
    (row : InteractionRow) : InteractionRow :=
  { row with
    status := status
    responseDoc := doc
    version := version
    updatedAt := now
    resolvedAt := some now }

theorem interactionId_settleChange (status : InteractionStatus) (doc : List (String × Json))
    (version : Nat) (now : ℚ) (row : InteractionRow) :
    (settleChange status doc version now row).interactionId = row.interactionId := rfl

/-- The update of an open row, and its event. -/
def settleInteraction (H : Host) (env : Env) (current : InteractionRow) (status : InteractionStatus)
    (response : PyValue) (now : ℚ) (actor : WorkActor) (correlationId : String) (payload : PyDict)
    (createdAt : Option ℚ) : Interact InteractionRecord := do
  let version := current.version + 1
  let doc ← Txn.lift (storedDict [("value", response)])
  Txn.modify fun t =>
    { t with
      interactions := t.interactions.updateWhere
        (fun r => r.interactionId == current.interactionId && r.version == current.version)
        (settleChange status doc version now) (interactionId_settleChange status doc version now) }
  let _ ← onWork <| insertEvent H env
    { eventType := "interaction." ++ status.text
      aggregateKind := "interaction"
      aggregateId := current.interactionId
      aggregateVersion := some version
      scope := current.scope
      actor := some actor
      correlationId := correlationId
      payload := payload
      createdAt := createdAt }
  selectInteraction current.interactionId

def interactionUnknown (interactionId : String) : Raised :=
  ⟨.workNotFound, "unknown interaction: " ++ interactionId⟩

def interactionNotOpen : Raised :=
  ⟨.workConflict, "interaction is no longer open at the expected version"⟩

/-- The row a goal transaction is about to settle. -/
def openGoalInput (interactionId : String) (expectedVersion : Int) : Interact InteractionRow := do
  let t ← Txn.read
  match t.interactions.find? interactionId with
  | none => Txn.raise (interactionUnknown interactionId)
  | some row =>
      Txn.ensure (row.status = .opened ∧ (row.version : Int) = expectedVersion) interactionNotOpen
      pure row

/-- `resolve_goal_input_tx` -/
def resolveGoalInput (H : Host) (env : Env) (interactionId : String) (response : PyValue)
    (expectedVersion : Int) (actor : WorkActor) (correlationId : String) (now : Option ℚ) :
    Interact InteractionRecord := do
  let current ← openGoalInput interactionId expectedVersion
  let resolvedAt := now.getD env.time
  settleInteraction H env current .answered response resolvedAt actor correlationId
    [("status", .str "answered")] (some resolvedAt)

/-- `dismiss_goal_input_tx` -/
def dismissGoalInput (H : Host) (env : Env) (interactionId : String) (expectedVersion : Int)
    (actor : WorkActor) (correlationId : String) (now : Option ℚ) : Interact InteractionRecord := do
  let current ← openGoalInput interactionId expectedVersion
  let resolvedAt := now.getD env.time
  settleInteraction H env current .dismissed (.dict [("skipped", .bool true)]) resolvedAt actor
    correlationId [("status", .str "dismissed"), ("reason", .str "user_skipped")] (some resolvedAt)

/-- The arguments of `resolve`. -/
structure ResolveArgs where
  interactionId : String
  status : String
  response : PyValue := .none
  expectedVersion : Option Int := none
  actor : WorkActor := .system
  correlationId : String := ""

/-- `str(status or "answered").strip()`, when it is a terminal state. -/
def ResolveArgs.target (c : ResolveArgs) : Except Raised InteractionStatus :=
  let name := strip (if c.status = "" then "answered" else c.status)
  match InteractionStatus.terminal? name with
  | none => .error (valueError s!"invalid terminal interaction status: {name}")
  | some status => .ok status

/-- The version is not the expected one. -/
def interactionVersionChanged (current : Nat) (expected : Int) : Raised :=
  ⟨.workConflict, s!"interaction version changed ({current} != {expected})"⟩

/-- `InteractionService.resolve` -/
def resolveInteraction (H : Host) (env : Env) (c : ResolveArgs) : Interact InteractionRecord := do
  let target ← Txn.lift c.target
  let t ← Txn.read
  match t.interactions.find? c.interactionId with
  | none => Txn.raise (interactionUnknown c.interactionId)
  | some current =>
      if current.status ∈ InteractionStatus.terminal then do
        Txn.ensure (current.status = target ∧ c.response.eqJson current.record.response = true)
          ⟨.workConflict, "interaction is already resolved"⟩
        pure current.record
      else do
        Txn.ensure (∀ v ∈ c.expectedVersion, (current.version : Int) = v)
          (interactionVersionChanged current.version (c.expectedVersion.getD 0))
        settleInteraction H env current target c.response env.time c.actor c.correlationId
          [("status", .str target.text)] none

/-- The call that `wait` makes when its deadline has passed, with the version it read. -/
def timeoutArgs (interactionId : String) (version : Nat) : ResolveArgs where
  interactionId := interactionId
  status := "timed_out"
  expectedVersion := some version

/-! ## Reading -/

/-- `work_scope_visible`: every field a record pins matches. -/
def workScopeVisible (record requested : WorkScope) : Bool :=
  [(record.chatId, requested.chatId), (record.conversationId, requested.conversationId),
      (record.branchId, requested.branchId), (record.workspaceId, requested.workspaceId),
      (record.goalId, requested.goalId), (record.goalRunId, requested.goalRunId),
      (record.stepId, requested.stepId), (record.worktreeId, requested.worktreeId),
      (record.catalogReleaseId, requested.catalogReleaseId)].all
    (fun p => p.1.val == "" || p.1.val == p.2.val) &&
  [(record.workspaceRevision, requested.workspaceRevision), (record.attempt, requested.attempt),
      (record.kernelGeneration, requested.kernelGeneration)].all fun p => p.1 == 0 || p.1 == p.2

/-- `InteractionService.get` -/
def getInteraction (interactionId : String) (scope : Option WorkScope) :
    Interact InteractionRecord := do
  let t ← Txn.read
  match t.interactions.find? interactionId with
  | none => Txn.raise (interactionUnknown interactionId)
  | some row =>
      Txn.ensure (∀ requested ∈ scope, workScopeVisible row.scope requested = true)
        (interactionUnknown interactionId)
      pure row.record

/-! ## The machine -/

/-- A body of a Goal transaction that this service or the event log runs. -/
inductive GoalTxStep where
  | createInput (g : GoalInputArgs)
  | resolveInput (interactionId : String) (response : PyValue) (expectedVersion : Int)
      (actor : WorkActor) (correlationId : String) (now : Option ℚ)
  | dismissInput (interactionId : String) (expectedVersion : Int) (actor : WorkActor)
      (correlationId : String) (now : Option ℚ)
  /-- An event of the goal itself. -/
  | goalEvent (a : EventArgs)

/-- One body of a Goal transaction. -/
def GoalTxStep.run (H : Host) (env : Env) : GoalTxStep → Interact Unit
  | .createInput g => (fun _ => ()) <$> createGoalInput H env g
  | .resolveInput interactionId response version actor correlationId now =>
      (fun _ => ()) <$> resolveGoalInput H env interactionId response version actor correlationId now
  | .dismissInput interactionId version actor correlationId now =>
      (fun _ => ()) <$> dismissGoalInput H env interactionId version actor correlationId now
  | .goalEvent a => (fun _ => ()) <$> onWork (insertEvent H env { a with aggregateKind := "goal" })

/-- The bodies of a Goal transaction, in order. -/
def runGoalSteps (H : Host) (env : Env) : List GoalTxStep → Interact Unit
  | [] => pure ()
  | step :: steps => do
      step.run H env
      runGoalSteps H env steps

/-- A transaction on the interactions. -/
inductive InteractionOp where
  | create (a : InteractionArgs)
  | resolve (c : ResolveArgs)
  /-- A `wait` whose deadline has passed after it read this version. -/
  | waitExpired (interactionId : String) (version : Nat)
  | get (interactionId : String) (scope : Option WorkScope)
  /-- A transaction of the Goal service. -/
  | goal (steps : List GoalTxStep)

/-- What an operation returns. -/
inductive InteractionOutcome where
  | record (record : InteractionRecord)
  | unit

/-- An operation and what it takes from outside. -/
structure InteractionCall where
  env : Env
  op : InteractionOp

/-- The transaction body of an operation. -/
def InteractionOp.perform (H : Host) (env : Env) : InteractionOp → Interact InteractionOutcome
  | .create a => InteractionOutcome.record <$> createInteraction H env a
  | .resolve c => InteractionOutcome.record <$> resolveInteraction H env c
  | .waitExpired interactionId version =>
      InteractionOutcome.record <$> resolveInteraction H env (timeoutArgs interactionId version)
  | .get interactionId scope => InteractionOutcome.record <$> getInteraction interactionId scope
  | .goal steps => (fun _ => InteractionOutcome.unit) <$> runGoalSteps H env steps

/-- The service: one operation is one unit of work. -/
def interactions (H : Host) : Machine InteractionDb InteractionCall (Except Raised InteractionOutcome)
    where
  start := ⟨.initial, .empty⟩
  step call t := Txn.unitOfWork (call.op.perform H call.env) call.env.fault t

end WorkFabric
end VariantOne
