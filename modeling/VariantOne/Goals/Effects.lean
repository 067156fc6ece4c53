import VariantOne.Core.Text
import VariantOne.Lib.Dict
import VariantOne.Lib.Interleave
import VariantOne.Lib.Table
import VariantOne.Lib.Txn

/-!
# The effects of goal steps

A step of a goal that acts on the world does so through an *effect*: a row that is recorded as planned,
marked dispatched, and only then acted upon.  Recording and marking are transactions of their own, each
under a goal version that is read anew, and the action is a third step.  The handlers are therefore
programs over these steps (`GoalStep`), and any of them may be entered again, or stop, in between.

What other transactions do to goals and steps is left open (`elsewhere`, `cancelGoal`): it writes no
effect beyond what is said of it here.
-/

namespace VariantOne
namespace Goals

/-! ## 1.  Rows -/

inductive GoalError where
  | notFound (message : String)
  | conflict (message : String)
  | transition (message : String)
  | validation (message : String)
  | integrity (message : String)
  /-- An exception of what a handler calls. -/
  | raised (message : String)
  /-- `asyncio.CancelledError` -/
  | cancelled
  deriving DecidableEq, Repr

/-- `isinstance(exc, GoalConflict)` -/
def GoalError.isConflict : GoalError → Bool
  | .conflict _ => true
  | _ => false

/-- `str(exc)` -/
def GoalError.message : GoalError → String
  | .notFound m | .conflict m | .transition m | .validation m | .integrity m | .raised m => m
  | .cancelled => ""

/-- `EFFECT_STATES` -/
inductive EffectStatus where
  | planned
  | dispatched
  | succeeded
  | failed
  | cancelled
  | unknownEffect
  deriving DecidableEq, Repr

def EffectStatus.text : EffectStatus → String
  | .planned => "planned"
  | .dispatched => "dispatched"
  | .succeeded => "succeeded"
  | .failed => "failed"
  | .cancelled => "cancelled"
  | .unknownEffect => "unknown_effect"

/-- Where a transition may lead. -/
def EffectStatus.allowed : EffectStatus → List EffectStatus
  | .planned => [.dispatched, .cancelled, .failed]
  | .dispatched => [.succeeded, .failed, .unknownEffect, .cancelled]
  | _ => []

/-- A value of a request or a response. -/
inductive Scalar where
  | null
  | flag (b : Bool)
  | number (n : Int)
  | text (s : String)
  deriving DecidableEq, Repr

/-- A request or a response: its entries, in the order of their keys when it is stored. -/
abbrev Payload := List (String × Scalar)

/-- A payload as it is stored. -/
def canonical (p : Payload) : Payload := Dict.sort p

/-- `workflow_goal` -/
structure GoalRow where
  goalId : String
  version : Nat
  deriving DecidableEq, Repr

/-- `workflow_step` -/
structure StepRow where
  stepId : String
  goalId : String
  attemptCount : Int
  deriving DecidableEq, Repr

/-- `workflow_effect` -/
structure EffectRecord where
  effectId : String
  goalId : String
  stepId : String
  attempt : Int
  sequence : Nat
  kind : String
  status : EffectStatus
  idempotencyKey : String
  request : Payload
  response : Payload
  receiptId : String
  error : String
  deriving DecidableEq, Repr

/-- `goal.effect_recorded` and `goal.effect_updated` -/
structure EffectEvent where
  effectId : String
  source : Option EffectStatus
  target : EffectStatus
  version : Nat
  deriving DecidableEq, Repr

/-- A kernel execution or a parent turn, and the effect it was begun for. -/
structure Start where
  kind : String
  effectId : String
  goalId : String
  stepId : String
  attempt : Int
  deriving DecidableEq, Repr

/-- The effect of an attempt that an action is begun for. -/
def Start.slot (x : Start) : String × String × Int × String := (x.goalId, x.stepId, x.attempt, x.kind)

/-- The repository, the runs that are admitted to a chat, and what was begun. -/
structure GoalStore where
  goals : Table GoalRow String GoalRow.goalId
  steps : List StepRow
  effects : Table EffectRecord String EffectRecord.effectId
  states : List ((String × String) × Payload)
  events : List EffectEvent
  admissions : List (String × String)
  started : List Start

/-! ## 2.  Transactions -/

/-- `_text` -/
def goalText (value field : String) (required : Bool) (limit : Nat) : Except GoalError String :=
  let result := strip value
  if required ∧ result = "" then .error (.validation s!"{field} is required")
  else if Char.ofNat 0 ∈ result.toList then .error (.validation s!"{field} contains a NUL character")
  else if limit < result.length then .error (.validation s!"{field} exceeds {limit} characters")
  else .ok result

abbrev GoalTxn := Txn GoalStore GoalError

/-- `_require_goal_tx` -/
def requireGoal (goalId : String) : GoalTxn GoalRow := do
  let s ← Txn.read
  match s.goals.find? goalId with
  | none => Txn.raise (.notFound s!"unknown goal: {goalId}")
  | some goal => return goal

/-- `_require_step_tx` -/
def requireStep (goalId stepId : String) : GoalTxn StepRow := do
  let s ← Txn.read
  match s.steps.find? fun x => x.goalId = goalId && x.stepId = stepId with
  | none => Txn.raise (.notFound s!"unknown goal step: {stepId}")
  | some step => return step

/-- `_check_version` -/
def checkVersion (goal : GoalRow) (expectedVersion : Nat) : GoalTxn Unit :=
  Txn.ensure (expectedVersion = goal.version)
    (.conflict s!"goal version changed ({goal.version} != {expectedVersion})")

/-- A goal takes a new version. -/
def GoalStore.advance (s : GoalStore) (goalId : String) (version : Nat) : GoalStore :=
  let goals := s.goals.updateWhere (fun g => g.goalId = goalId)
    (fun g => { g with version := version }) fun _ => rfl
  { s with goals := goals }

/-- `_advance_tx`, with the event of an effect. -/
def advance (goal : GoalRow) (effectId : String) (source : Option EffectStatus)
    (target : EffectStatus) : GoalTxn Unit :=
  Txn.modify fun s =>
    { s.advance goal.goalId (goal.version + 1) with
      events := s.events ++ [⟨effectId, source, target, goal.version + 1⟩] }

/-- What `record_effect` is given. -/
structure EffectRequest where
  goalId : String
  stepId : String
  expectedVersion : Nat
  kind : String
  idempotencyKey : String
  request : Payload
  deriving DecidableEq, Repr

/-- Hand out the effect that a key has. -/
def replayEffect (q : EffectRequest) (step : StepRow) (prior : EffectRecord) : GoalTxn EffectRecord := do
  Txn.ensure (prior.stepId = step.stepId ∧ prior.kind = q.kind ∧ prior.request = canonical q.request)
    (.conflict "effect idempotency key was reused for a different request")
  return prior

/-- `INSERT INTO workflow_effect` -/
def insertEffect (effect : EffectRecord) : GoalTxn Unit := do
  let s ← Txn.read
  match s.effects.insert? effect with
  | none => Txn.raise (.integrity "UNIQUE constraint failed: workflow_effect.effect_id")
  | some effects => Txn.modify fun s => { s with effects := effects }

/-- The number of the next effect of a goal. -/
def nextSequence (s : GoalStore) (goalId : String) : Nat :=
  ((s.effects.rows.filter fun e => e.goalId = goalId).map (·.sequence)).foldr max 0 + 1

/-- `record_effect`, of a planned effect -/
def recordEffect (q : EffectRequest) (draw : BitVec 128) : GoalTxn EffectRecord := do
  let idem ← Txn.lift (goalText q.idempotencyKey "effect idempotency_key" true 512)
  let goal ← requireGoal q.goalId
  let step ← requireStep goal.goalId q.stepId
  let s ← Txn.read
  match s.effects.rows.find? fun e => e.goalId = goal.goalId && e.idempotencyKey = idem with
  | some prior => replayEffect q step prior
  | none => do
      checkVersion goal q.expectedVersion
      let kind ← Txn.lift (goalText q.kind "effect kind" true 120)
      let effect : EffectRecord := ⟨newId "effect" draw, goal.goalId, step.stepId, step.attemptCount,
        nextSequence s goal.goalId, kind, .planned, idem, canonical q.request, [], "", ""⟩
      insertEffect effect
      advance goal effect.effectId none .planned
      return effect

/-- What `update_effect` is given. -/
structure EffectUpdate where
  effectId : String
  expectedVersion : Nat
  status : EffectStatus
  response : Payload
  receiptId : String
  error : String
  deriving DecidableEq, Repr

/-- The row that an update asks for. -/
def EffectUpdate.SameAs (q : EffectUpdate) (effect : EffectRecord) : Prop :=
  effect.response = canonical q.response ∧ effect.receiptId = q.receiptId ∧ effect.error = q.error

instance (q : EffectUpdate) (effect : EffectRecord) : Decidable (q.SameAs effect) :=
  inferInstanceAs (Decidable (_ ∧ _))

/-- `UPDATE workflow_effect SET … WHERE effect_id=?` -/
def GoalStore.updateEffect (s : GoalStore) (q : EffectUpdate) (error : String) : GoalStore :=
  let effects := s.effects.updateWhere (fun e => e.effectId = q.effectId)
    (fun e => { e with status := q.status, response := canonical q.response,
                       receiptId := q.receiptId, error := error }) fun _ => rfl
  { s with effects := effects }

/-- An update that asks for the status the effect has. -/
def repeatUpdate (q : EffectUpdate) (effect : EffectRecord) : GoalTxn EffectRecord := do
  Txn.ensure (q.SameAs effect)
    (.conflict "effect transition was replayed with different terminal data")
  return effect

/-- An update that moves the effect. -/
def moveEffect (q : EffectUpdate) (goal : GoalRow) (effect : EffectRecord) : GoalTxn EffectRecord := do
  checkVersion goal q.expectedVersion
  Txn.ensure (q.status ∈ effect.status.allowed)
    (.transition s!"cannot transition effect {effect.status.text} -> {q.status.text}")
  let error ← Txn.lift (goalText q.error "effect error" false 4000)
  Txn.modify fun s => s.updateEffect q error
  advance goal effect.effectId (some effect.status) q.status
  return { effect with status := q.status, response := canonical q.response,
                       receiptId := q.receiptId, error := error }

/-- `update_effect` -/
def updateEffect (q : EffectUpdate) : GoalTxn EffectRecord := do
  let s ← Txn.read
  match s.effects.find? q.effectId with
  | none => Txn.raise (.notFound s!"unknown effect: {q.effectId}")
  | some effect => do
      let goal ← requireGoal effect.goalId
      if q.status = effect.status then repeatUpdate q effect else moveEffect q goal effect

/-- `list_effects` -/
def listEffects (goalId : String) : GoalTxn (List EffectRecord) := do
  let goal ← requireGoal goalId
  let s ← Txn.read
  return (s.effects.rows.filter fun e => e.goalId = goal.goalId).insertionSort
    fun e e' => e.sequence ≤ e'.sequence

/-- `get_effect` -/
def getEffect (effectId : String) : GoalTxn (Option EffectRecord) := do
  let s ← Txn.read
  return s.effects.find? effectId

/-- `state_set` -/
def stateSet (goalId key : String) (value : Payload) (expectedVersion : Nat) : GoalTxn Unit := do
  let key ← Txn.lift (goalText key "state key" true 240)
  let goal ← requireGoal goalId
  checkVersion goal expectedVersion
  Txn.modify fun s =>
    { s.advance goal.goalId (goal.version + 1) with
      states := Dict.set s.states (goal.goalId, key) (canonical value) }

/-- What `cancel_goal` does to the effects of a goal, whatever it does to the goal and its steps. -/
def cancelGoal (goalId reason : String) (goals : Table GoalRow String GoalRow.goalId)
    (steps : List StepRow) : GoalTxn Unit :=
  Txn.modify fun s =>
    let effects := s.effects.updateWhere
      (fun e => e.goalId = goalId && (e.status = .planned || e.status = .dispatched))
      (fun e => { e with status := .cancelled, error := reason }) fun _ => rfl
    { s with goals := goals, steps := steps, effects := effects }

/-! ## 3.  Admission to a chat -/

/-- What keeps a chat from admitting a run. -/
inductive Readiness where
  | exhausted
  | busy
  | idle
  deriving DecidableEq, Repr

/-- `try_reserve_run`, with the id of the admission. -/
def reserveRun (chatId admissionId : String) (readiness : Readiness) : GoalTxn (Option String) := do
  match readiness with
  | .exhausted =>
      Txn.raise (.raised "chat continuation is paused because its admitted budget is exhausted")
  | .busy => return none
  | .idle =>
      let s ← Txn.read
      match Dict.get? s.admissions chatId with
      | some _ => return none
      | none =>
          Txn.modify fun s => { s with admissions := Dict.set s.admissions chatId admissionId }
          return some admissionId

/-- `finish_run` -/
def finishRun (admissionId : String) : GoalTxn Unit :=
  Txn.modify fun s => { s with admissions := s.admissions.filter fun a => a.2 ≠ admissionId }

/-! ## 4.  Steps -/

/-- What a kernel execution ends with. -/
structure KernelResult where
  ok : Bool
  executionId : String
  generation : Int
  resultRef : String
  ledgerSequence : Int
  errorMessage : String
  deriving DecidableEq, Repr

inductive GoalStep where
  | requireGoal (goalId : String)
  | recordEffect (q : EffectRequest) (draw : BitVec 128)
  | updateEffect (q : EffectUpdate)
  | listEffects (goalId : String)
  | getEffect (effectId : String)
  | stateSet (goalId key : String) (value : Payload) (expectedVersion : Nat)
  | reserveRun (chatId admissionId : String) (readiness : Readiness)
  | finishRun (admissionId : String)
  /-- The kernel executes, and the outcome is what it will be. -/
  | kernelExecute (x : Start) (outcome : Except GoalError KernelResult)
  /-- A parent turn is launched. -/
  | launchTurn (x : Start) (outcome : Except GoalError Unit)
  | cancelGoal (goalId reason : String) (goals : Table GoalRow String GoalRow.goalId)
      (steps : List StepRow)
  /-- Any transaction that writes no effect. -/
  | elsewhere (goals : Table GoalRow String GoalRow.goalId) (steps : List StepRow)

abbrev GoalStep.Reply : GoalStep → Type
  | .requireGoal _ => GoalRow
  | .recordEffect _ _ => EffectRecord
  | .updateEffect _ => EffectRecord
  | .listEffects _ => List EffectRecord
  | .getEffect _ => Option EffectRecord
  | .stateSet _ _ _ _ => Unit
  | .reserveRun _ _ _ => Option String
  | .finishRun _ => Unit
  | .kernelExecute _ _ => KernelResult
  | .launchTurn _ _ => Unit
  | .cancelGoal _ _ _ _ => Unit
  | .elsewhere _ _ => Unit

/-- One step. -/
def perform : (t : GoalStep) → GoalStore → Except GoalError t.Reply × GoalStore
  | .requireGoal goalId => (Goals.requireGoal goalId).unitOfWork none
  | .recordEffect q draw => (Goals.recordEffect q draw).unitOfWork none
  | .updateEffect q => (Goals.updateEffect q).unitOfWork none
  | .listEffects goalId => (Goals.listEffects goalId).unitOfWork none
  | .getEffect effectId => (Goals.getEffect effectId).unitOfWork none
  | .stateSet goalId key value expectedVersion =>
      (Goals.stateSet goalId key value expectedVersion).unitOfWork none
  | .reserveRun chatId admissionId readiness =>
      (Goals.reserveRun chatId admissionId readiness).unitOfWork none
  | .finishRun admissionId => (Goals.finishRun admissionId).unitOfWork none
  | .kernelExecute x outcome => fun s => (outcome, { s with started := s.started ++ [x] })
  | .launchTurn x outcome => fun s => (outcome, { s with started := s.started ++ [x] })
  | .cancelGoal goalId reason goals steps => (Goals.cancelGoal goalId reason goals steps).unitOfWork none
  | .elsewhere goals steps => fun s => (.ok (), { s with goals := goals, steps := steps })

abbrev Handler := Prog GoalStep GoalStep.Reply GoalError

/-- A step of a handler. -/
def ask (t : GoalStep) : Handler t.Reply := Prog.request t

/-! ## 5.  Handlers -/

/-- `StepExecutionContext`: the attempt that a handler is entered for. -/
structure StepContext where
  goalId : String
  ownerChatId : String
  stepId : String
  attempt : Int
  deriving DecidableEq, Repr

inductive StepStatus where
  | succeeded
  | failed
  | blocked
  | cancelled
  | waiting
  deriving DecidableEq, Repr

/-- `StepExecutionResult` -/
structure StepResult where
  status : StepStatus
  error : String
  resultRef : String
  waitSource : String
  metadata : Payload
  deriving DecidableEq, Repr

/-- A result that only says why. -/
def StepResult.because (status : StepStatus) (error : String) : StepResult := ⟨status, error, "", "", []⟩

/-- The key of the effect of an attempt. -/
def effectKey (goalId stepId : String) (attempt : Int) (kind : String) : String :=
  s!"goal:{goalId}:step:{stepId}:attempt:{attempt}:{kind}"

/-- `_effect` -/
def effectOf (c : StepContext) (kind : String) (request : Payload) (draw : BitVec 128) :
    Handler EffectRecord := do
  let goal : GoalRow ← ask (.requireGoal c.goalId)
  ask (.recordEffect ⟨goal.goalId, c.stepId, goal.version, kind,
    effectKey goal.goalId c.stepId c.attempt kind, request⟩ draw)

/-- `_effect_update` -/
def effectUpdate (effect : EffectRecord) (status : EffectStatus) (response : Payload) (error : String) :
    Handler Unit := do
  let goal : GoalRow ← ask (.requireGoal effect.goalId)
  let _ : EffectRecord ← ask (.updateEffect ⟨effect.effectId, goal.version, status, response, "",
    clip error 4000⟩)
  return ()

/-- `_settle_interrupted_effect`, in at most `n` rounds. -/
def settleInterruptedEffect (effect : EffectRecord) (cancelled : Bool) (error : String) :
    Nat → Handler Unit
  | 0 => return ()
  | n + 1 => do
      let effects : List EffectRecord ← ask (.listEffects effect.goalId)
      match effects.find? fun e => e.effectId = effect.effectId with
      | none => return ()
      | some current =>
          if current.status ≠ .dispatched then return ()
          else
            (effectUpdate current (if cancelled then .cancelled else .unknownEffect) [] error).handle
              fun e => if e.isConflict then settleInterruptedEffect effect cancelled error n else .raise e

/-- A python step, and how its execution goes: what the kernel does, and whether a cancellation is
requested when the handler asks. -/
structure PythonStep where
  code : String
  runtimeChatId : String
  draw : BitVec 128
  outcome : Except GoalError KernelResult
  cancelled : Bool

/-- What a kernel execution is begun for. -/
def StepContext.start (c : StepContext) (kind effectId : String) : Start :=
  ⟨kind, effectId, c.goalId, c.stepId, c.attempt⟩

/-- What `python` does with an execution that raises. -/
def settleRaised (p : PythonStep) (effect : EffectRecord) (e : GoalError) : Handler Unit :=
  if e = .cancelled then
    settleInterruptedEffect effect p.cancelled "kernel step cancelled during execution" 2
  else settleInterruptedEffect effect false s!"kernel execution interrupted: {e.message}" 2

/-- The kernel executes for an effect. -/
def executeKernel (c : StepContext) (p : PythonStep) (effect : EffectRecord) :
    Handler KernelResult :=
  (ask (.kernelExecute (c.start "kernel.execute" effect.effectId) p.outcome)).handle fun e => do
    settleRaised p effect e
    .raise e

/-- What `python` does with a result. -/
def settleKernel (p : PythonStep) (effect : EffectRecord) (result : KernelResult) :
    Handler StepResult :=
  if p.cancelled then do
    settleInterruptedEffect effect true "goal cancelled during kernel execution" 2
    return .because .cancelled "goal cancelled"
  else do
    effectUpdate effect (if result.ok then .succeeded else .failed)
      [("execution_id", .text result.executionId), ("kernel_generation", .number result.generation),
        ("result_ref", .text result.resultRef), ("ledger_sequence", .number result.ledgerSequence)]
      result.errorMessage
    return ⟨if result.ok then .succeeded else .failed, result.errorMessage, result.resultRef, "",
      [("execution_id", .text result.executionId), ("kernel_generation", .number result.generation),
        ("cell_ledger_sequence", .number result.ledgerSequence)]⟩

/-- `python` -/
def python (sha256 : String → String) (c : StepContext) (p : PythonStep) : Handler StepResult :=
  if p.code = "" then return .because .blocked "python step requires config.code"
  else if p.runtimeChatId ≠ "" ∧ p.runtimeChatId ≠ c.ownerChatId then
    return .because .blocked "python step must use its goal's owning chat"
  else if c.ownerChatId = "" then
    return .because .blocked "python step requires an owner runtime chat"
  else do
    let effect ← effectOf c "kernel.execute"
      [("chat_id", .text c.ownerChatId), ("code_sha256", .text (sha256 p.code))] p.draw
    if effect.status ≠ .planned then
      return ⟨.blocked,
        s!"kernel effect was already dispatched; automatic replay is refused ({effect.status.text})",
        "", "", [("effect_id", .text effect.effectId), ("effect_status", .text effect.status.text)]⟩
    else do
      effectUpdate effect .dispatched [("chat_id", .text c.ownerChatId)] ""
      let result ← executeKernel c p effect
      settleKernel p effect result

/-- A step that the owner chat executes, and how it goes: whether there is a chat to do it and whether
it can admit a run, the ids that are drawn, and what launching raises. -/
structure ParentStep where
  available : Bool
  cancelled : Bool
  readiness : Readiness
  admissionId : String
  runId : String
  draw : BitVec 128
  outcome : Except GoalError Unit

/-- `_state` and `_outcome` -/
def setState (goalId key : String) (value : Payload) : Handler Unit := do
  let goal : GoalRow ← ask (.requireGoal goalId)
  ask (.stateSet goalId key value goal.version)

/-- `execute`, once a run is admitted -/
def executeAdmitted (c : StepContext) (p : ParentStep) (admission : String) : Handler StepResult := do
  let effect ← effectOf c "parent.turn" [("chat_id", .text c.ownerChatId)] p.draw
  if effect.status ≠ .planned then do
    let _ : Unit ← ask (.finishRun admission)
    return .because .blocked "Parent turn needs reconciliation; it will not be replayed"
  else do
    let slot : Payload := [("admission_id", .text admission), ("effect_id", .text effect.effectId),
      ("run_id", .text p.runId), ("step_id", .text c.stepId), ("attempt", .number c.attempt),
      ("status", .text "running")]
    effectUpdate effect .dispatched slot ""
    setState c.goalId "parent_turn" slot
    setState c.goalId "objective_outcome" [("status", .text "unreported"), ("basis", .null),
      ("independently_verified", .flag false), ("step_id", .text c.stepId)]
    let _ : Unit ← ask (.launchTurn (c.start "parent.turn" effect.effectId) p.outcome)
    return ⟨.waiting, "", "", "parent_session", []⟩

/-- `execute` of the parent session -/
def executeParent (c : StepContext) (p : ParentStep) : Handler StepResult :=
  if p.available = false then return .because .blocked "Goal owner chat is unavailable or archived"
  else if p.cancelled then return .because .cancelled "Goal cancelled before parent admission"
  else do
    let admitted : Option String ← ask (.reserveRun c.ownerChatId p.admissionId p.readiness)
    match admitted with
    | none => return ⟨.waiting, "", "", "parent_session", []⟩
    | some admission =>
        (executeAdmitted c p admission).handle fun e => do
          let _ : Unit ← ask (.finishRun admission)
          .raise e

/-- `process`, `agent`, `child` and `integration`, up to the dispatch of their effects -/
def dispatchOther (c : StepContext) (kind : String) (request response : Payload) (draw : BitVec 128) :
    Handler StepResult := do
  let effect ← effectOf c kind request draw
  if effect.status ≠ .planned then
    return .because .blocked s!"effect cannot be automatically replayed from {effect.status.text}"
  else do
    effectUpdate effect .dispatched response ""
    return ⟨.waiting, "", "", "", []⟩

/-- What a parent session does to the effect of a turn that has ended. -/
def resolveParent (effectId : String) (success : Bool) (slot : Payload) : Handler Unit := do
  let found : Option EffectRecord ← ask (.getEffect effectId)
  match found with
  | none => return ()
  | some effect =>
      if effect.status = .dispatched then
        effectUpdate effect (if success then .succeeded else .failed) slot ""
      else return ()

/-- Effects whose owner is gone become unknown. -/
def fenceEffects : List EffectRecord → Handler Unit
  | [] => return ()
  | effect :: effects =>
      if effect.status ≠ .dispatched then fenceEffects effects
      else do
        effectUpdate effect .unknownEffect []
          "backend ownership ended before effect completion was reconciled"
        fenceEffects effects

/-- What `reconcile_expired_step_leases` does to the effects of a step. -/
def reconcileStep (goalId stepId : String) (attempt : Int) : Handler Unit := do
  let _ : GoalRow ← ask (.requireGoal goalId)
  let effects : List EffectRecord ← ask (.listEffects goalId)
  fenceEffects (effects.filter fun e => e.stepId = stepId && e.attempt = attempt)

/-! ## 6.  The goal host -/

/-- What is entered. -/
inductive Operation where
  | python (c : StepContext) (p : PythonStep)
  | parent (c : StepContext) (p : ParentStep)
  | other (c : StepContext) (kind : String) (request response : Payload) (draw : BitVec 128)
  | recover (goalId stepId : String) (attempt : Int)
  | resolve (effectId : String) (success : Bool) (slot : Payload)

/-- What happens elsewhere. -/
inductive OutsideEvent where
  | cancelGoal (goalId reason : String) (goals : Table GoalRow String GoalRow.goalId)
      (steps : List StepRow)
  | elsewhere (goals : Table GoalRow String GoalRow.goalId) (steps : List StepRow)
  | runFinished (admissionId : String)
  /-- An effect is settled: a process or a child of it has ended. -/
  | settle (q : EffectUpdate) (settled : q.status ≠ .dispatched)

/-- The handlers and what is around them. -/
def goalHost (sha256 : String → String) :
    Service GoalStore GoalStep GoalStep.Reply GoalError Operation (Option StepResult) OutsideEvent where
  perform := perform
  program
    | .python c p => do
        let result ← python sha256 c p
        return some result
    | .parent c p => do
        let result ← executeParent c p
        return some result
    | .other c kind request response draw => do
        let result ← dispatchOther c kind request response draw
        return some result
    | .recover goalId stepId attempt => do
        let _ ← reconcileStep goalId stepId attempt
        return none
    | .resolve effectId success slot => do
        let _ ← resolveParent effectId success slot
        return none
  outside
    | .cancelGoal goalId reason goals steps => .cancelGoal goalId reason goals steps
    | .elsewhere goals steps => .elsewhere goals steps
    | .runFinished admissionId => .finishRun admissionId
    | .settle q _ => .updateEffect q

/-- A repository without effects. -/
def GoalStore.empty : GoalStore := ⟨Table.empty, [], Table.empty, [], [], [], []⟩

end Goals
end VariantOne
