import VariantOne.Automation.Triggers
import VariantOne.Lib.Machine

/-!
# The automation store

`AutomationStore` keeps the saved tasks in memory and in one JSON document.  An
occurrence of a task that was accepted is a *claim* on the task: one scheduled claim
and any number of trigger claims may be outstanding.  Every operation plans the next
tasks on a copy; they are written to the document first and taken into memory after
(`_replace_tasks`), so a plan that raises and a write that fails leave both alone.

The machine also notes which claims were completed, or discarded because their task
was disabled (`Watched`).  The store itself keeps no such record.
-/

namespace VariantOne
namespace Automation

/-! ## Tasks and claims -/

/-- `execution_task_snapshot`: the settings a run executes under. -/
structure TaskSnapshot where
  id : String
  name : Json
  prompt : Json
  trigger : Json
  enabled : Bool
  durableCheckpoints : Bool
  misfirePolicy : String
  modelRoute : Json
  cancellationEpoch : Nat
  deriving Repr

/-- What `is_due` reads of a task with these settings that last ran then. -/
def TaskSnapshot.schedule (t : TaskSnapshot) (lastRun : ℚ) : Schedule where
  enabled := t.enabled
  trigger := t.trigger
  misfirePolicy := t.misfirePolicy
  lastRun := lastRun

/-- An occurrence that was delivered from outside. -/
structure TriggerClaim where
  claimId : String
  payload : String
  source : String
  claimedAt : ℚ
  status : String
  taskSnapshot : TaskSnapshot
  deriving Repr

/-- An occurrence of the schedule. -/
structure ScheduledClaim where
  claimId : String
  occurrenceAt : ℚ
  claimedAt : ℚ
  status : String
  previousLastRun : ℚ
  taskSnapshot : TaskSnapshot
  deriving Repr

/-- A saved task. -/
structure Task extends TaskSnapshot where
  lastRun : ℚ
  triggerClaims : List TriggerClaim := []
  scheduledClaim : Option ScheduledClaim := none
  lastTriggerStatus : Option String := none
  lastScheduleStatus : Option String := none
  deriving Repr

/-- The identities of the outstanding trigger claims. -/
def Task.triggerIds (t : Task) : List String := t.triggerClaims.map (·.claimId)

/-- The identities of all outstanding claims. -/
def Task.claimIds (t : Task) : List String :=
  (t.scheduledClaim.map (·.claimId)).toList ++ t.triggerIds

/-- `str(value or default)[:limit]` -/
def clippedText (value default : String) (limit : Nat) : String :=
  clip (if value = "" then default else value) limit

/-- `_discard_pending_claims` -/
def Task.discardPendingClaims (t : Task) (status : String) : Task :=
  { t with
    triggerClaims := []
    lastTriggerStatus :=
      if t.triggerClaims = [] then t.lastTriggerStatus else some (clippedText status "cancelled" 40)
    scheduledClaim := none
    lastScheduleStatus :=
      if t.scheduledClaim.isSome then some (clippedText status "cancelled" 40)
      else t.lastScheduleStatus }

/-- `next(row for row in tasks if row.get("id") == tid)` -/
def findTask (tasks : List Task) (tid : String) : Option Task := tasks.find? (·.id == tid)

/-- The tasks after the first one with this identity was edited. -/
def editTask (tid : String) (f : Task → Task) : List Task → List Task
  | [] => []
  | t :: ts => if t.id == tid then f t :: ts else t :: editTask tid f ts

/-! ## The store and its document -/

/-- `AutomationStore`, with the tasks its document holds.  A document that is not there
yet reads as one without tasks. -/
structure AutomationStore where
  tasks : List Task
  document : List Task
  /-- `_load_failure` -/
  loadFailed : Bool

/-- What an operation takes from outside. -/
structure StoreEnv where
  /-- `time.time()` -/
  time : ℚ
  /-- The draws of `secrets.token_hex`, in order. -/
  token : Nat → String
  /-- Why the document cannot be written. -/
  writeFault : Option String
  /-- Why the document cannot be read. -/
  readFault : Option String

/-- The exceptions of the store. -/
inductive StoreError where
  | automationPersistence (message : String)
  | lookup (message : String)
  | runtime (message : String)
  | uncaught (e : Raised)
  deriving DecidableEq, Repr

/-- `_write_tasks` -/
def writeTasks (env : StoreEnv) (tasks : List Task) (s : AutomationStore) :
    Except StoreError Unit × AutomationStore :=
  if s.loadFailed then
    (.error (.automationPersistence "Reload the automation document successfully before saving"), s)
  else match env.writeFault with
    | some e =>
        (.error (.automationPersistence s!"automation store could not be persisted: {e}"), s)
    | none => (.ok (), { s with document := tasks })

/-- `_replace_tasks` -/
def replaceTasks (env : StoreEnv) (tasks : List Task) (s : AutomationStore) :
    Except StoreError Unit × AutomationStore :=
  match writeTasks env tasks s with
  | (.ok _, s') => (.ok (), { s' with tasks := tasks })
  | (.error e, s') => (.error e, s')

/-- What an operation returns, and the tasks it replaces the present ones by, if it does. -/
structure Plan (α : Type) where
  answer : α
  next : Option (List Task)

/-- The common course of the operations: plan on a copy, replace, return. -/
def carryOut {α : Type} (env : StoreEnv) (plan : List Task → Except StoreError (Plan α))
    (s : AutomationStore) : Except StoreError α × AutomationStore :=
  match plan s.tasks with
  | .error e => (.error e, s)
  | .ok ⟨answer, none⟩ => (.ok answer, s)
  | .ok ⟨answer, some next⟩ =>
      match replaceTasks env next s with
      | (.ok _, s') => (.ok answer, s')
      | (.error e, s') => (.error e, s')

/-- `load` -/
def AutomationStore.load (env : StoreEnv) (s : AutomationStore) :
    Except StoreError Unit × AutomationStore :=
  match env.readFault with
  | some e => (.error (.automationPersistence e), { s with loadFailed := true })
  | none => (.ok (), { s with tasks := s.document, loadFailed := false })

/-- `save` -/
def AutomationStore.save (env : StoreEnv) (s : AutomationStore) :
    Except StoreError Unit × AutomationStore :=
  writeTasks env s.tasks s

/-! ## Definitions -/

/-- The arguments of `add`. -/
structure AddArgs where
  name : String
  prompt : String
  trigger : List (String × Json)
  enabled : Bool := true
  misfirePolicy : String := "latest"
  modelRoute : List (String × Json) := []

/-- `add`: the first draw makes a missing webhook token, the second the identity. -/
def addPlan (env : StoreEnv) (a : AddArgs) (tasks : List Task) : Except StoreError (Plan Task) :=
  let webhook := (Dict.get? a.trigger "type").bind (·.toPy.str?) = some "webhook"
  let token := ((Dict.get? a.trigger "token").map (·.toPy.truthy)).getD false
  let task : Task :=
    { id := env.token 1
      name := .str (if a.name = "" then "(unnamed)" else a.name)
      prompt := .str a.prompt
      trigger := .obj (if webhook ∧ token = false then
        Dict.set a.trigger "token" (.str (env.token 0)) else a.trigger)
      enabled := a.enabled
      durableCheckpoints := true
      misfirePolicy := if a.misfirePolicy ∈ misfirePolicies then a.misfirePolicy else "latest"
      modelRoute := .obj a.modelRoute
      cancellationEpoch := 0
      lastRun := 0 }
  .ok ⟨task, some (tasks ++ [task])⟩

/-- The policy `update` stores for a value. -/
def updatedPolicy (P : Interpreter) (v : Json) : String :=
  let value := P.lower (strip (P.text (orElse (some v.toPy) (.str ""))))
  if value ∈ misfirePolicies then value else "latest"

/-- The loop of `update` over the fields it was given. -/
def Task.withFields (P : Interpreter) (fields : List (String × Json)) (t : Task) : Task :=
  let requested := (Dict.get? fields "enabled").map (·.toPy.truthy)
  { t with
    name := (Dict.get? fields "name").getD t.name
    prompt := (Dict.get? fields "prompt").getD t.prompt
    enabled := requested.getD t.enabled
    cancellationEpoch :=
      if requested = some false then t.cancellationEpoch + 1 else t.cancellationEpoch
    trigger := (Dict.get? fields "trigger").getD t.trigger
    durableCheckpoints :=
      ((Dict.get? fields "durable_checkpoints").map (·.toPy.truthy)).getD t.durableCheckpoints
    misfirePolicy := ((Dict.get? fields "misfire_policy").map (updatedPolicy P)).getD t.misfirePolicy
    modelRoute := (Dict.get? fields "model_route").getD t.modelRoute }

/-- What `update` makes of a task. -/
def Task.update (P : Interpreter) (fields : List (String × Json)) (t : Task) : Task :=
  let t' := t.withFields P fields
  if t'.enabled then t' else t'.discardPendingClaims "cancelled_disabled"

/-- An edit of one task, or `False` when there is none or it does not apply. -/
def editPlan (tid : String) (f : Task → Option Task) (tasks : List Task) :
    Except StoreError (Plan Bool) :=
  match (findTask tasks tid).bind f with
  | none => .ok ⟨false, none⟩
  | some t => .ok ⟨true, some (editTask tid (fun _ => t) tasks)⟩

/-- `update` -/
def updatePlan (P : Interpreter) (tid : String) (fields : List (String × Json)) :
    List Task → Except StoreError (Plan Bool) :=
  editPlan tid fun t => some (t.update P fields)

/-- `pin_model_route` -/
def pinModelRoutePlan (tid : String) (route : Json) (tasks : List Task) :
    Except StoreError (Plan Json) :=
  match findTask tasks tid with
  | none => .ok ⟨route, none⟩
  | some t =>
      if t.modelRoute.toPy.truthy then .ok ⟨t.modelRoute, none⟩
      else .ok ⟨route, some (editTask tid (fun t => { t with modelRoute := route }) tasks)⟩

/-- `remove` -/
def removePlan (tid : String) (tasks : List Task) : Except StoreError (Plan Bool) :=
  let next := tasks.filter fun t => t.id ≠ tid
  if next.length = tasks.length then .ok ⟨false, none⟩ else .ok ⟨true, some next⟩

/-! ## Trigger claims -/

/-- The arguments of `admit_trigger`. -/
structure TriggerArgs where
  tid : String
  payload : String := ""
  source : String := "trigger"
  claimId : String := ""

/-- The identity of the claim: the caller's, or a fresh one. -/
def TriggerArgs.identity (env : StoreEnv) (a : TriggerArgs) : String :=
  if strip a.claimId = "" then s!"trigger:{a.tid}:{env.token 0}" else strip a.claimId

/-- `admit_trigger` -/
def admitTriggerPlan (env : StoreEnv) (a : TriggerArgs) (tasks : List Task) :
    Except StoreError (Plan TriggerClaim) :=
  match findTask tasks a.tid with
  | none => .error (.lookup s!"unknown automation: {a.tid}")
  | some task =>
      if task.enabled = false then .error (.runtime "automation is disabled")
      else match task.triggerClaims.find? (·.claimId == a.identity env) with
        | some prior =>
            if prior.payload ≠ clip a.payload 8000 ∨ prior.source ≠ clippedText a.source "trigger" 40
            then .error (.runtime "automation trigger claim identity conflict")
            else .ok ⟨prior, none⟩
        | none =>
            if 100 ≤ task.triggerClaims.length then
              .error (.runtime "automation has too many uncompleted trigger claims")
            else
              let claim : TriggerClaim :=
                { claimId := a.identity env
                  payload := clip a.payload 8000
                  source := clippedText a.source "trigger" 40
                  claimedAt := env.time
                  status := "claimed"
                  taskSnapshot := task.toTaskSnapshot }
              .ok ⟨claim, some (editTask a.tid
                (fun t => { t with triggerClaims := t.triggerClaims ++ [claim] }) tasks)⟩

/-- `claim_is_active` -/
def claimIsActive (P : Interpreter) (tasks : List Task) (tid claimId claimKind : String) : Bool :=
  let identity := strip claimId
  let kind := P.lower (strip claimKind)
  if identity = "" then false
  else match findTask tasks tid with
    | none => false
    | some task =>
        if task.enabled = false then false
        else if (kind = "" ∨ kind = "scheduled") ∧
            (task.scheduledClaim.map (·.claimId)) = some identity then true
        else if kind = "" ∨ kind = "trigger" then task.triggerIds.contains identity
        else false

/-- What `complete_trigger_claim` makes of a task. -/
def Task.completeTrigger (claimId status : String) (t : Task) : Option Task :=
  let kept := t.triggerClaims.filter fun c => c.claimId ≠ claimId
  if kept.length = t.triggerClaims.length then none
  else some { t with
    triggerClaims := kept
    lastTriggerStatus := some (clippedText status "completed" 40) }

/-- `complete_trigger_claim` -/
def completeTriggerClaimPlan (tid claimId status : String) :
    List Task → Except StoreError (Plan Bool) :=
  editPlan tid (Task.completeTrigger claimId status)

/-- A trigger claim that was left unfinished. -/
structure RecoveredTrigger where
  claimId : String
  payload : String
  source : String
  task : Task

/-- A task as the recoveries leave it. -/
def Task.drained (t : Task) : Task :=
  if t.enabled then t else t.discardPendingClaims "cancelled_disabled"

/-- The tasks to write, when a recovery discarded anything. -/
def drainedTasks (tasks : List Task) : Option (List Task) :=
  if tasks.all fun t => t.enabled || t.claimIds.isEmpty then none else some (tasks.map Task.drained)

/-- `recover_trigger_claims` -/
def recoverTriggerClaimsPlan (tasks : List Task) :
    Except StoreError (Plan (List RecoveredTrigger)) :=
  .ok ⟨(tasks.filter (·.enabled)).flatMap fun t =>
    (t.triggerClaims.filter fun c => c.claimId ≠ "").map fun c =>
      ⟨c.claimId, c.payload, if c.source = "" then "trigger" else c.source, t⟩,
    drainedTasks tasks⟩

/-! ## Scheduled claims -/

/-- The identity of a new scheduled claim. -/
def scheduledId (tid token : String) : String := s!"schedule:{tid}:{token}"

/-- The task with its next occurrence claimed. -/
def Task.claimed (t : Task) (claimId : String) (now time : ℚ) : Task :=
  { t with
    lastRun := now
    scheduledClaim := some
      { claimId := claimId
        occurrenceAt := now
        claimedAt := time
        status := "claimed"
        previousLastRun := t.lastRun
        taskSnapshot := t.toTaskSnapshot } }

/-- The loop of `claim_due_tasks`, which has drawn `n` tokens: the tasks after it and
the claims it made. -/
def claimDue (R : Runtime) (env : StoreEnv) (now : ℚ) :
    Nat → List Task → Except Raised (List Task × List (String × Task))
  | _, [] => .ok ([], [])
  | n, t :: ts =>
      if t.scheduledClaim.isSome then do
        let (ts', claims) ← claimDue R env now n ts
        return (t :: ts', claims)
      else do
        let due ← isDue R (t.schedule t.lastRun) now
        if due = true ∧ t.id ≠ "" then
          let claimId := scheduledId t.id (env.token n)
          let claimed := t.claimed claimId now env.time
          let (ts', claims) ← claimDue R env now (n + 1) ts
          return (claimed :: ts', (claimId, claimed) :: claims)
        else
          let (ts', claims) ← claimDue R env now n ts
          return (t :: ts', claims)

/-- `claim_due_tasks` -/
def claimDueTasksPlan (R : Runtime) (env : StoreEnv) (now : Option ℚ) (tasks : List Task) :
    Except StoreError (Plan (List (String × Task))) :=
  match claimDue R env (now.getD env.time) 0 tasks with
  | .error e => .error (.uncaught e)
  | .ok (next, claims) => .ok ⟨claims, if claims = [] then none else some next⟩

/-- `recover_scheduled_claims` -/
def recoverScheduledClaimsPlan (tasks : List Task) :
    Except StoreError (Plan (List (String × Task))) :=
  .ok ⟨(tasks.filter (·.enabled)).flatMap fun t =>
    (t.scheduledClaim.toList.filter fun c => strip c.claimId ≠ "").map fun c =>
      (strip c.claimId, t),
    drainedTasks tasks⟩

/-- An edit of the task that holds this scheduled claim. -/
def Task.onScheduledClaim (claimId : String) (f : ScheduledClaim → Task → Task) (t : Task) :
    Option Task :=
  match t.scheduledClaim with
  | none => none
  | some c => if c.claimId ≠ claimId then none else some (f c { t with scheduledClaim := none })

/-- `complete_scheduled_claim` -/
def completeScheduledClaimPlan (tid claimId status : String) :
    List Task → Except StoreError (Plan Bool) :=
  editPlan tid <| Task.onScheduledClaim claimId fun _ t =>
    { t with lastScheduleStatus := some (clippedText status "completed" 40) }

/-- `release_skipped_scheduled_claim` -/
def releasePlan (tid claimId : String) : List Task → Except StoreError (Plan Bool) :=
  editPlan tid <| Task.onScheduledClaim claimId fun c t =>
    { t with lastRun := c.previousLastRun, lastScheduleStatus := some "skipped" }

/-! ## The machine -/

inductive StoreOp where
  | add (a : AddArgs)
  | update (tid : String) (fields : List (String × Json))
  | pinModelRoute (tid : String) (route : Json)
  | remove (tid : String)
  | admitTrigger (a : TriggerArgs)
  | completeTriggerClaim (tid claimId status : String)
  | recoverTriggerClaims
  | claimDueTasks (now : Option ℚ)
  | recoverScheduledClaims
  | completeScheduledClaim (tid claimId status : String)
  | releaseSkippedScheduledClaim (tid claimId : String)
  | load
  | save

/-- What an operation returns. -/
inductive StoreAnswer where
  | unit
  | flag (b : Bool)
  | task (t : Task)
  | route (route : Json)
  | claim (c : TriggerClaim)
  | triggers (rows : List RecoveredTrigger)
  | claims (rows : List (String × Task))

/-- An operation and what it takes from outside. -/
structure StoreCall where
  env : StoreEnv
  op : StoreOp

/-- What came of an operation, its answer under a name. -/
def named {α : Type} (f : α → StoreAnswer) (p : Except StoreError α × AutomationStore) :
    Except StoreError StoreAnswer × AutomationStore :=
  (p.1.map f, p.2)

/-- An operation of the store. -/
def StoreOp.perform (R : Runtime) (env : StoreEnv) (s : AutomationStore) :
    StoreOp → Except StoreError StoreAnswer × AutomationStore
  | .add a => named .task (carryOut env (addPlan env a) s)
  | .update tid fields => named .flag (carryOut env (updatePlan R.python tid fields) s)
  | .pinModelRoute tid route => named .route (carryOut env (pinModelRoutePlan tid route) s)
  | .remove tid => named .flag (carryOut env (removePlan tid) s)
  | .admitTrigger a => named .claim (carryOut env (admitTriggerPlan env a) s)
  | .completeTriggerClaim tid claimId status =>
      named .flag (carryOut env (completeTriggerClaimPlan tid claimId status) s)
  | .recoverTriggerClaims => named .triggers (carryOut env recoverTriggerClaimsPlan s)
  | .claimDueTasks now => named .claims (carryOut env (claimDueTasksPlan R env now) s)
  | .recoverScheduledClaims => named .claims (carryOut env recoverScheduledClaimsPlan s)
  | .completeScheduledClaim tid claimId status =>
      named .flag (carryOut env (completeScheduledClaimPlan tid claimId status) s)
  | .releaseSkippedScheduledClaim tid claimId =>
      named .flag (carryOut env (releasePlan tid claimId) s)
  | .load => named (fun _ => .unit) (s.load env)
  | .save => named (fun _ => .unit) (s.save env)

/-- The store, and the claims that are through: completed, or discarded because their
task was disabled. -/
structure Watched where
  store : AutomationStore
  retired : List (String × String)

/-- The claims of the tasks that are disabled now. -/
def discarded (before after : List Task) : List (String × String) :=
  before.flatMap fun t =>
    if (findTask after t.id).any fun t' => !t'.enabled then t.claimIds.map fun id => (t.id, id)
    else []

/-- The claims an operation is through with. -/
def StoreOp.retires (before after : List Task) (r : Except StoreError StoreAnswer) :
    StoreOp → List (String × String)
  | .completeTriggerClaim tid claimId _ | .completeScheduledClaim tid claimId _ =>
      match r with
      | .ok (.flag true) => [(tid, claimId)]
      | _ => []
  | .update _ _ | .recoverTriggerClaims | .recoverScheduledClaims => discarded before after
  | _ => []

/-- The store at work. -/
def automations (R : Runtime) : Machine Watched StoreCall (Except StoreError StoreAnswer) where
  start := ⟨⟨[], [], false⟩, []⟩
  step call w :=
    let p := call.op.perform R call.env w.store
    (p.1, ⟨p.2, call.op.retires w.store.tasks p.2.tasks p.1 ++ w.retired⟩)

end Automation
end VariantOne
