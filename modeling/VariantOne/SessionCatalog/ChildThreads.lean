import Mathlib.Data.List.Find
import VariantOne.Lib.Dict
import VariantOne.Lib.Machine
import VariantOne.SessionCatalog.Children

/-!
# The checkpoint threads of children

A worker commits its boundaries on a checkpoint thread, and a run that was interrupted is resumed from the
head of that thread.  The thread is not named by the child: it is named by the chat the child was spawned
under and by the first sixteen digits of a digest of what it was asked to do.  Two children therefore have
one thread exactly when these agree (`subagentThreadId_eq_iff`), and a child whose task repeats that of a
sibling is resumed from the sibling's boundary: `siblings_share_thread`.

The main result is `children_apart`.  In a run in which no birth repeats the thread of another child
(`FreshThread`), a thread is used by one child, and an interrupted child is resumed from its own last
boundary whenever the runner takes up a boundary of that kind.  The runner refuses one whose transcript ends
with tool calls and that does not lead to the tools (`validateResumeBoundary_eq_ok_iff`); a model step that
is aborted, fails, or is cut off too often in its tool calls commits such a boundary.

The argument is an invariant of the host (`Apart`): every thread has one child, the runs and the boundaries
are on the threads of their children, and the head of a thread is the last boundary on it.
-/

namespace VariantOne
namespace SessionCatalog

open SessionRuntime (SessionError RuntimeIdentity)

/-! ## 1.  The name of a thread -/

/-- `hashlib.sha256(text.encode("utf-8")).hexdigest()`: 64 digits. -/
structure Sha256 where
  hexdigest : String → String
  length_hexdigest : ∀ text, (hexdigest text).length = 64

namespace Sha256

variable (H : Sha256)

/-- What `subagent_thread_id` hashes. -/
def delegation (task instructions : String) : String := strip task ++ "\n" ++ strip instructions

/-- The part of the digest that names a thread. -/
def delegationDigest (task instructions : String) : String :=
  clip (H.hexdigest (delegation task instructions)) 16

/-- The chat a thread is scoped to. -/
def threadScope (parentThreadId : String) : String :=
  strip (if parentThreadId = "" then "orphan" else parentThreadId)

/-- `subagent_thread_id` -/
def subagentThreadId (parentThreadId task instructions : String) : String :=
  "subagent:" ++ threadScope parentThreadId ++ ":" ++ H.delegationDigest task instructions

/-- The thread of a child: `_run` hands over the chat it was spawned under. -/
def threadOf (r : ChildRow) : String := H.subagentThreadId r.parentChatId r.taskText r.contextText

theorem length_delegationDigest (task instructions : String) :
    (H.delegationDigest task instructions).length = 16 := by
  rw [delegationDigest, clip, String.length_ofList, List.length_take, String.length_toList,
    H.length_hexdigest]
  rfl

/-- **Two delegations have one thread** exactly when they agree on the scope and on the first
sixteen digits of the digest. -/
theorem subagentThreadId_eq_iff {parent parent' task task' instructions instructions' : String} :
    H.subagentThreadId parent task instructions = H.subagentThreadId parent' task' instructions' ↔
      threadScope parent = threadScope parent' ∧
        H.delegationDigest task instructions = H.delegationDigest task' instructions' := by
  constructor
  · intro h
    have hlists := congrArg String.toList h
    unfold subagentThreadId at hlists
    simp only [String.toList_append, List.append_assoc] at hlists
    have hrest := List.append_cancel_left hlists
    rw [← List.append_assoc, ← List.append_assoc] at hrest
    have hlength : (H.delegationDigest task instructions).toList.length =
        (H.delegationDigest task' instructions').toList.length := by
      rw [String.length_toList, String.length_toList, length_delegationDigest,
        length_delegationDigest]
    obtain ⟨hscope, hdigest⟩ := List.append_inj' hrest hlength
    exact ⟨String.toList_inj.mp (List.append_cancel_right hscope), String.toList_inj.mp hdigest⟩
  · rintro ⟨hscope, hdigest⟩
    rw [subagentThreadId, subagentThreadId, hscope, hdigest]

end Sha256

/-! ## 2.  Boundaries -/

/-- A tool call in a message, or an action: its identity, empty where it is absent, its tool, and its
arguments as canonical text, unless they cannot be read as an object. -/
structure WorkerCall where
  id : String
  name : String
  arguments : Option String
  deriving DecidableEq, Repr

/-- A message of a transcript. -/
structure WorkerMessage where
  role : String
  content : String
  toolCalls : List WorkerCall := []
  deriving DecidableEq, Repr

/-- `route_worker` -/
inductive WorkerRoute where
  | modelStep | tools | finalize
  deriving DecidableEq, Repr

/-- The loop of a worker: where it goes on, and the actions of its last model step. -/
structure WorkerLoop where
  route : WorkerRoute
  actions : List WorkerCall
  deriving DecidableEq, Repr

/-- `RunState`, of what decides on a resume. -/
structure WorkerState where
  threadId : String
  runId : String
  goal : String
  status : String
  graphRevision : String
  messages : List WorkerMessage
  worker : Option WorkerLoop
  deriving DecidableEq, Repr

/-- The nodes of a worker's graph. -/
inductive BoundaryNode where
  | init | prepare | workerStep | workerTool | workerFinalize | finalize | ended
  deriving DecidableEq, Repr

/-- The name of a node. -/
def BoundaryNode.text : BoundaryNode → String
  | init => "init"
  | prepare => "prepare"
  | workerStep => "worker_step"
  | workerTool => "worker_tool"
  | workerFinalize => "worker_finalize"
  | finalize => "finalize"
  | ended => "end"

/-- `_TERMINAL` -/
def terminalRunStatuses : List String := ["completed", "failed", "cancelled", "error", "truncated"]

/-- `WORKER_GRAPH_REVISION` -/
def workerGraphRevision : String := "worker.ipython.v2"

/-- `is_incomplete_run_state`, of a worker's state. -/
def WorkerState.incomplete (s : WorkerState) : Bool :=
  s.status = "awaiting_transcript" ||
    (s.goal ≠ "" && s.runId ≠ "" && !terminalRunStatuses.contains s.status)

/-- The route of a state, `finalize` where it has none. -/
def WorkerState.route (s : WorkerState) : WorkerRoute := (s.worker.map (·.route)).getD .finalize

/-- `_worker_node_for_route` -/
def nodeForRoute : WorkerRoute → BoundaryNode
  | .modelStep => .workerStep
  | .tools => .workerTool
  | .finalize => .workerFinalize

/-- The node that follows on one that is completed; nothing follows on the end. -/
def WorkerState.nodeAfter (s : WorkerState) : BoundaryNode → Option BoundaryNode
  | .init => some .prepare
  | .prepare | .workerStep | .workerTool => some (nodeForRoute s.route)
  | .workerFinalize => some .finalize
  | .finalize => some .ended
  | .ended => none

/-- The head of a thread. -/
structure ThreadHead where
  sequence : Nat
  completedNode : BoundaryNode
  nextNode : BoundaryNode
  state : WorkerState
  deriving DecidableEq, Repr

/-- The tool calls that a transcript ends with. -/
def WorkerState.openCalls (s : WorkerState) : List WorkerCall :=
  match s.messages.getLast? with
  | some m => if m.role = "assistant" then m.toolCalls else []
  | none => []

/-- `str(call.get("id") or f"call_{index}")` -/
def WorkerCall.idAt (c : WorkerCall) (index : Nat) : String := if c.id = "" then s!"call_{index}" else c.id

/-- The first action that is not that of its call; the identities hold no quotes. -/
def callMismatch : Nat → List WorkerCall → List WorkerCall → Option String
  | index, call :: calls, action :: actions =>
      let callId := call.idAt index
      let actionId := action.idAt index
      match call.arguments with
      | none => some s!"checkpoint tool call '{callId}' has invalid arguments"
      | some arguments =>
          if call.name = "" ∨ callId ≠ actionId ∨ call.name ≠ action.name ∨
              arguments ≠ action.arguments.getD "\x7b\x7d" then
            some s!"checkpoint tool action '{actionId}' does not match its provider call"
          else callMismatch (index + 1) calls actions
  | _, _, _ => none

/-- `pending_tool_loop_from_run_state` -/
def pendingToolLoop (s : WorkerState) : Except String (Option WorkerLoop) :=
  if s.openCalls = [] then .ok none
  else
    match s.worker with
    | some ⟨.tools, actions⟩ =>
        if actions.length ≠ s.openCalls.length then
          .error "checkpoint tool actions do not match the unmatched provider calls"
        else
          match callMismatch 0 s.openCalls actions with
          | some message => .error message
          | none => .ok (some ⟨.tools, actions⟩)
    | _ => .error "checkpoint ends with unmatched tool calls but does not route to tools"

/-- `restore_messages_from_run_state`: the system message is refreshed. -/
def restoreMessages (system : String) : List WorkerMessage → List WorkerMessage
  | [] => [⟨"system", system, []⟩]
  | m :: ms =>
      if m.role = "system" then ⟨"system", system, []⟩ :: ms else ⟨"system", system, []⟩ :: m :: ms

/-! ## 3.  Runs of children -/

/-- What a run raises. -/
inductive WorkerError where
  | session (e : SessionError)
  /-- `DurableCheckpointUnavailable` -/
  | unavailable (message : String)
  | storeConflict (message : String)
  deriving DecidableEq, Repr

/-- `_validate_resume_boundary`, of a worker's head. -/
def validateResumeBoundary (head : ThreadHead) : Except WorkerError Unit :=
  if terminalRunStatuses.contains head.state.status then
    .error (.unavailable "terminal native snapshot cannot be resumed")
  else
    let completed := head.completedNode.text
    match head.state.nodeAfter head.completedNode with
    | none =>
        .error (.unavailable
          s!"native resume boundary is invalid: unknown worker boundary node: '{completed}'")
    | some expected =>
        if head.nextNode ≠ expected then
          let next := head.nextNode.text
          let wanted := expected.text
          .error (.unavailable
            s!"native resume boundary route mismatch ('{completed}' -> '{next}', expected '{wanted}')")
        else
          match pendingToolLoop head.state with
          | .error e => .error (.unavailable s!"native resume pending-tool boundary is invalid: {e}")
          | .ok pending =>
              if pending.isSome ∧ head.nextNode ≠ .workerTool then
                .error (.unavailable
                  "native snapshot has unmatched tool calls but does not resume into tools")
              else if head.nextNode = .workerTool ∧ pending.isNone then
                .error (.unavailable
                  "native snapshot resumes into tools without a matching provider call batch")
              else .ok ()

/-- A run under way: its system prompt, the cursor its next boundary is fenced with, and its
state. -/
structure WorkerRun where
  childId : String
  generation : Nat
  system : String
  cursor : Option Nat
  state : WorkerState
  deriving DecidableEq, Repr

/-- The children with the heads of their threads and the runs under way. -/
structure ChildWorld where
  db : ChildDb
  heads : List (String × ThreadHead)
  runs : List (Nat × WorkerRun)

inductive WorkerStep where
  | spawn (cap : Capacity) (identity : RuntimeIdentity) (a : ChildDb.SpawnArgs)
      (u v : BitVec 128) (now : ℚ)
  /-- A run is claimed, and looks its thread up. -/
  | begin (run : Nat) (childId runId system : String)
  /-- A run commits the boundary of a node; the first one holds no messages yet. -/
  | commit (run : Nat) (node : BoundaryNode) (tail : Option (List WorkerMessage)) (status : String)
      (worker : Option WorkerLoop)
  /-- The process stops, or the run is left without another boundary. -/
  | stop (run : Nat)
  | finish (childId : String) (f : ChildDb.Finish) (u : BitVec 128) (now : ℚ)
  | restart (cap : Capacity) (seen : ChildRow) (requestId message : String)
      (u : BitVec 128) (now : ℚ)

inductive WorkerReply where
  | raised (e : WorkerError)
  | nothing
  | started (childId threadId : String)
  | resumed (childId threadId : String) (state : WorkerState)
  | committed (childId threadId : String) (generation : Nat) (head : ThreadHead)
  deriving DecidableEq, Repr

/-- The checkpoint contract of a worker's state. -/
def WorkerState.contract (s : WorkerState) : Bool := s.graphRevision = workerGraphRevision

/-- `prior_incomplete_run_for_thread` -/
def priorIncompleteRun (heads : List (String × ThreadHead)) (threadId : String) : Option ThreadHead :=
  if threadId = "" then none
  else (Dict.get? heads threadId).filter fun head => head.state.incomplete && head.state.contract

/-- The refreshed transcript is the stored one but for its system message. -/
def safeSystemRefresh : List WorkerMessage → Bool
  | [] => true
  | m :: _ => m.role = "system"

section Steps

variable (H : Sha256)

/-- The run of a child on its thread: resumed, or fresh. -/
def startRun (r : ChildRow) (runId system : String) (heads : List (String × ThreadHead)) :
    Except WorkerError (WorkerReply × WorkerRun) :=
  let threadId := H.threadOf r
  let fresh : WorkerState :=
    ⟨threadId, runId, strip r.taskText, "running", workerGraphRevision, [], none⟩
  match priorIncompleteRun heads threadId with
  | some head =>
      match validateResumeBoundary head with
      | .error e => .error e
      | .ok () =>
          if safeSystemRefresh head.state.messages then
            let state := { fresh with
              runId := head.state.runId, messages := restoreMessages system head.state.messages }
            .ok (.resumed r.childId threadId head.state,
              ⟨r.childId, r.runGeneration, system, some head.sequence, state⟩)
          else
            .error (.unavailable "headless resume transcript differs from the authoritative snapshot")
  | none =>
      match Dict.get? heads threadId with
      | none => .ok (.started r.childId threadId, ⟨r.childId, r.runGeneration, system, none, fresh⟩)
      | some head =>
          if terminalRunStatuses.contains head.state.status then
            .ok (.started r.childId threadId,
              ⟨r.childId, r.runGeneration, system, some head.sequence, fresh⟩)
          else .error (.unavailable s!"fresh native run would fork incomplete thread {threadId}")

/-- The state of the next boundary of a run. -/
def WorkerRun.next (run : WorkerRun) (tail : Option (List WorkerMessage)) (status : String)
    (worker : Option WorkerLoop) : WorkerState :=
  { run.state with
    status := status
    messages := tail.elim run.state.messages fun ms => ⟨"system", run.system, []⟩ :: ms
    worker := worker }

/-- `commit_boundary` under the fence of a run. -/
def commitHead (heads : List (String × ThreadHead)) (cursor : Option Nat) (completed next : BoundaryNode)
    (state : WorkerState) : Except WorkerError ThreadHead :=
  let head := Dict.get? heads state.threadId
  if head.map (·.sequence) = cursor then .ok ⟨cursor.elim 1 (· + 1), completed, next, state⟩
  else .error (.storeConflict s!"snapshot head changed for {state.threadId}")

namespace ChildWorld

/-- A transaction on the database of the children. -/
def apply {α : Type} (x : Except SessionError α × ChildDb) (w : ChildWorld) : WorkerReply × ChildWorld :=
  match x with
  | (.ok _, db) => (.nothing, { w with db := db })
  | (.error e, db) => (.raised (.session e), { w with db := db })

def begin (run : Nat) (childId runId system : String) (w : ChildWorld) : WorkerReply × ChildWorld :=
  match w.db.row childId, w.db.claim childId with
  | none, _ => (.nothing, w)
  | some r, (claimed, db) =>
      if claimed ≠ 1 then (.nothing, w)
      else
        match startRun H r runId system w.heads with
        | .error e => (.raised e, { w with db := db })
        | .ok (reply, started) =>
            (reply, { w with db := db, runs := Dict.set w.runs run started })

def commit (run : Nat) (node : BoundaryNode) (tail : Option (List WorkerMessage)) (status : String)
    (worker : Option WorkerLoop) (w : ChildWorld) : WorkerReply × ChildWorld :=
  match Dict.get? w.runs run with
  | none => (.nothing, w)
  | some r =>
      let state := r.next tail status worker
      match state.nodeAfter node with
      | none => (.nothing, w)
      | some next =>
          match commitHead w.heads r.cursor node next state with
          | .error e => (.raised e, { w with runs := Dict.restrict (fun k => k ≠ run) w.runs })
          | .ok head =>
              (.committed r.childId state.threadId r.generation head,
                { w with
                  heads := Dict.set w.heads state.threadId head
                  runs := Dict.set w.runs run { r with cursor := some head.sequence, state := state } })

def step : WorkerStep → ChildWorld → WorkerReply × ChildWorld
  | .spawn cap identity a u v now, w => w.apply (w.db.spawn cap identity a u v now)
  | .begin run childId runId system, w => w.begin H run childId runId system
  | .commit run node tail status worker, w => w.commit run node tail status worker
  | .stop run, w => (.nothing, { w with runs := Dict.restrict (fun k => k ≠ run) w.runs })
  | .finish childId f u now, w => w.apply (Txn.unitOfWork (ChildDb.finishTxn childId f u now) none w.db)
  | .restart cap seen requestId message u now, w =>
      w.apply (Txn.unitOfWork (ChildDb.restartTxn cap seen requestId message u now) none w.db)

end ChildWorld

/-- The children of a host, their runs and their threads; `accounts` holds the chats there are. -/
def childWorkers (accounts : SessionRuntime.Accounts) : Machine ChildWorld WorkerStep WorkerReply :=
  ⟨⟨⟨accounts, Table.empty, Table.empty⟩, [], []⟩, ChildWorld.step H⟩

end Steps

/-! ## 4.  Who uses a thread -/

abbrev WorkerHistory := List (WorkerStep × WorkerReply)

/-- The thread a step has used, and the child it was used for. -/
def WorkerReply.use : WorkerReply → Option (String × String)
  | started childId threadId => some (childId, threadId)
  | resumed childId threadId _ => some (childId, threadId)
  | committed childId threadId _ _ => some (childId, threadId)
  | raised _ | nothing => none

/-- A run of the child has used the thread. -/
def Used (h : WorkerHistory) (threadId childId : String) : Prop :=
  ∃ e ∈ h, e.2.use = some (childId, threadId)

instance (h : WorkerHistory) (threadId childId : String) : Decidable (Used h threadId childId) :=
  inferInstanceAs (Decidable (∃ e ∈ h, e.2.use = some (childId, threadId)))

/-- The boundary a step has committed: its child, its generation and the head it has become. -/
def WorkerReply.boundary : WorkerReply → Option (String × Nat × ThreadHead)
  | committed childId _ generation head => some (childId, generation, head)
  | _ => none

/-- The last boundary of the runs of a child. -/
def lastBoundary (h : WorkerHistory) (childId : String) : Option (String × Nat × ThreadHead) :=
  (h.filterMap fun e => e.2.boundary).find? fun b => b.1 = childId

/-- The last boundary on a thread. -/
def headBoundary (h : WorkerHistory) (threadId : String) : Option (String × Nat × ThreadHead) :=
  (h.filterMap fun e => e.2.boundary).find? fun b => b.2.2.state.threadId = threadId

/-- When a child is born, no other child has the thread of its delegation. -/
def FreshThread (H : Sha256) (_ : WorkerHistory) (w : ChildWorld) : WorkerStep → Prop
  | .spawn cap identity a u v now =>
      w.db.row (a.birthId u) = none → ((w.db.spawn cap identity a u v now).2.row (a.birthId u)).isSome →
        ∀ r ∈ w.db.children.rows, ¬ (Sha256.threadScope r.parentChatId = Sha256.threadScope a.parentChatId ∧
          H.delegationDigest r.taskText r.contextText =
            H.delegationDigest (clip (strip a.task) 20000) (clip a.context 40000))
  | _ => True

/-! ## 5.  The children and their threads -/

section Names

variable (H : Sha256)

/-- The children with their threads. -/
def threadNames (db : ChildDb) : List (String × String) :=
  db.children.rows.map fun r => (r.childId, H.threadOf r)

variable {H} {db db' : ChildDb}

theorem threadNames_congr (h : db'.children = db.children) : threadNames H db' = threadNames H db := by
  unfold threadNames
  rw [h]

/-- A write that keeps what a child was asked keeps its thread. -/
theorem threadNames_update {childId : String} {cond : ChildRow → Bool} {f : ChildRow → ChildRow}
    {hf : ∀ r, (f r).childId = r.childId} (hthread : ∀ r, H.threadOf (f r) = H.threadOf r) :
    threadNames H (db.update childId cond f hf).2 = threadNames H db := by
  unfold threadNames
  show List.map _ (List.map _ _) = _
  rw [List.map_map]
  refine List.map_congr_left fun r _ => ?_
  rw [Function.comp_apply]
  split
  · rw [hf, hthread]
  · rfl

/-- The children are those there were, or one more that was born. -/
def Joined (H : Sha256) (db : ChildDb) (childId threadId : String) (db' : ChildDb) : Prop :=
  threadNames H db' = threadNames H db ∨
    db.row childId = none ∧ threadNames H db' = threadNames H db ++ [(childId, threadId)]

theorem joined_spawn {cap : Capacity} {identity : RuntimeIdentity} {a : ChildDb.SpawnArgs}
    {u v : BitVec 128} {now : ℚ} {x : Except SessionError ChildRow}
    (h : db.spawn cap identity a u v now = (x, db')) :
    Joined H db (a.birthId u) (H.subagentThreadId a.parentChatId (clip (strip a.task) 20000)
      (clip a.context 40000)) db' := by
  rcases ChildDb.spawn_cases h with rfl | ⟨chat, parent, runtimes, -, -, rfl | ⟨-, row, hborn⟩⟩
  · exact .inl rfl
  · exact .inl rfl
  · obtain ⟨depth, rfl⟩ := hborn.born
    refine .inr ⟨hborn.fresh, ?_⟩
    rw [threadNames, hborn.children, List.map_append]
    rfl

theorem threadNames_finish {childId : String} {f : ChildDb.Finish} {u : BitVec 128} {now : ℚ}
    {x : Except SessionError Nat}
    (h : Txn.unitOfWork (ChildDb.finishTxn childId f u now) none db = (x, db')) :
    threadNames H db' = threadNames H db := by
  cases x with
  | error e => rw [Txn.unitOfWork_error h]
  | ok n =>
      obtain ⟨-, hchildren, -⟩ := ChildDb.finishTxn_ok (Txn.unitOfWork_ok.mp h).1
      exact (threadNames_congr hchildren).trans (threadNames_update fun _ => rfl)

theorem threadNames_restart {cap : Capacity} {seen : ChildRow} {requestId message : String}
    {u : BitVec 128} {now : ℚ} {x : Except SessionError ChildRow}
    (h : Txn.unitOfWork (ChildDb.restartTxn cap seen requestId message u now) none db = (x, db')) :
    threadNames H db' = threadNames H db := by
  cases x with
  | error e => rw [Txn.unitOfWork_error h]
  | ok r =>
      obtain ⟨latest, -, ⟨rfl, -⟩ | ⟨-, -, -, hchildren, -⟩⟩ :=
        ChildDb.restartTxn_ok (Txn.unitOfWork_ok.mp h).1
      · rfl
      · exact (threadNames_congr hchildren).trans (threadNames_update fun _ => rfl)

theorem threadNames_claim (childId : String) :
    threadNames H (db.claim childId).2 = threadNames H db := threadNames_update fun _ => rfl

theorem mem_threadNames_of_row {childId : String} {r : ChildRow} (h : db.row childId = some r) :
    (childId, H.threadOf r) ∈ threadNames H db := by
  obtain ⟨hmem, hid⟩ := Table.find?_eq_some_iff.mp h
  exact List.mem_map.mpr ⟨r, hmem, by rw [hid]⟩

theorem row_isSome_of_mem {childId threadId : String} (h : (childId, threadId) ∈ threadNames H db) :
    (db.row childId).isSome := by
  obtain ⟨r, hmem, heq⟩ := List.mem_map.mp h
  obtain ⟨hid, -⟩ := Prod.mk.inj heq
  exact Option.isSome_iff_exists.mpr ⟨r, Table.find?_eq_some_iff.mpr ⟨hmem, hid⟩⟩

end Names

/-! ## 6.  Threads kept apart -/

/-- Every thread has one child; runs and boundaries are on the threads of their children, and the
heads are the last boundaries.  Each leads to the node that follows on its own. -/
structure Apart (H : Sha256) (h : WorkerHistory) (w : ChildWorld) : Prop where
  names : ∀ p ∈ threadNames H w.db, ∀ q ∈ threadNames H w.db, p.2 = q.2 → p.1 = q.1
  used : ∀ threadId childId, Used h threadId childId → (childId, threadId) ∈ threadNames H w.db
  runs : ∀ key run, Dict.get? w.runs key = some run →
    (run.childId, run.state.threadId) ∈ threadNames H w.db ∧ run.state.contract = true ∧
      safeSystemRefresh run.state.messages = true
  heads : ∀ threadId, Dict.get? w.heads threadId = (headBoundary h threadId).map fun b => b.2.2
  boundaries : ∀ e ∈ h, ∀ b, e.2.boundary = some b →
    (b.1, b.2.2.state.threadId) ∈ threadNames H w.db ∧ b.2.2.state.contract = true ∧
      safeSystemRefresh b.2.2.state.messages = true ∧
      b.2.2.state.nodeAfter b.2.2.completedNode = some b.2.2.nextNode

section Steps

variable {H : Sha256} {h : WorkerHistory} {w w' : ChildWorld} {l : WorkerStep} {reply : WorkerReply}

theorem used_cons {threadId childId : String} :
    Used ((l, reply) :: h) threadId childId ↔
      reply.use = some (childId, threadId) ∨ Used h threadId childId := by
  unfold Used
  simp only [List.mem_cons, or_and_right, exists_or, exists_eq_left]

theorem headBoundary_cons_of_none (hb : reply.boundary = none) (threadId : String) :
    headBoundary ((l, reply) :: h) threadId = headBoundary h threadId := by
  unfold headBoundary
  rw [List.filterMap_cons_none (f := fun e : WorkerStep × WorkerReply => e.2.boundary) hb]

theorem headBoundary_cons {b : String × Nat × ThreadHead} (hb : reply.boundary = some b)
    (threadId : String) :
    headBoundary ((l, reply) :: h) threadId =
      if b.2.2.state.threadId = threadId then some b else headBoundary h threadId := by
  unfold headBoundary
  rw [List.filterMap_cons_some (f := fun e : WorkerStep × WorkerReply => e.2.boundary) hb,
    List.find?_cons]
  by_cases hthread : b.2.2.state.threadId = threadId
  · rw [if_pos hthread, decide_eq_true hthread]
  · rw [if_neg hthread, decide_eq_false hthread]

/-- More children, each with a thread of its own. -/
theorem Apart.joined (hw : Apart H h w) {db : ChildDb} {childId threadId : String}
    (hjoin : Joined H w.db childId threadId db)
    (hfresh : w.db.row childId = none → (db.row childId).isSome →
      ∀ p ∈ threadNames H w.db, p.2 ≠ threadId) :
    Apart H h { w with db := db } := by
  have hsub : ∀ p ∈ threadNames H w.db, p ∈ threadNames H db := by
    intro p hp
    rcases hjoin with heq | ⟨-, heq⟩
    · rw [heq]
      exact hp
    · rw [heq]
      exact List.mem_append_left _ hp
  refine ⟨?_, fun t c hused => hsub _ (hw.used t c hused),
    fun key run hrun => ⟨hsub _ (hw.runs key run hrun).1, (hw.runs key run hrun).2⟩, hw.heads,
    fun e he b hb => ⟨hsub _ (hw.boundaries e he b hb).1, (hw.boundaries e he b hb).2⟩⟩
  intro p hp q hq hpq
  rcases hjoin with heq | ⟨hnone, heq⟩
  · rw [heq] at hp hq
    exact hw.names p hp q hq hpq
  · have hborn : (childId, threadId) ∈ threadNames H db := by
      rw [heq]
      exact List.mem_append_right _ List.mem_cons_self
    have hother := hfresh hnone (row_isSome_of_mem hborn)
    rw [heq, List.mem_append, List.mem_singleton] at hp hq
    rcases hp with hp | rfl <;> rcases hq with hq | rfl
    · exact hw.names p hp q hq hpq
    · exact absurd hpq (hother p hp)
    · exact absurd hpq.symm (hother q hq)
    · rfl

/-- The same children in another database. -/
theorem Apart.sameNames (hw : Apart H h w) {db : ChildDb}
    (heq : threadNames H db = threadNames H w.db) : Apart H h { w with db := db } := by
  refine ⟨?_, fun t c => ?_, fun key run => ?_, hw.heads, fun e he b hb => ?_⟩
  · show ∀ p ∈ threadNames H db, ∀ q ∈ threadNames H db, p.2 = q.2 → p.1 = q.1
    rw [heq]
    exact hw.names
  · show _ → (c, t) ∈ threadNames H db
    rw [heq]
    exact hw.used t c
  · show _ → (run.childId, run.state.threadId) ∈ threadNames H db ∧ _
    rw [heq]
    exact hw.runs key run
  · show (b.1, b.2.2.state.threadId) ∈ threadNames H db ∧ _
    rw [heq]
    exact hw.boundaries e he b hb

/-- A step that neither uses a thread nor commits. -/
theorem Apart.silent (hw : Apart H h w) (huse : reply.use = none) (hb : reply.boundary = none) :
    Apart H ((l, reply) :: h) w := by
  refine ⟨hw.names, fun t c hused => ?_, hw.runs, fun t => ?_, fun e he b hboundary => ?_⟩
  · rw [used_cons, huse] at hused
    exact hw.used t c (hused.resolve_left (by simp))
  · rw [headBoundary_cons_of_none hb]
    exact hw.heads t
  · rcases List.mem_cons.mp he with rfl | he
    · exact absurd (hb.symm.trans hboundary) (by simp)
    · exact hw.boundaries e he b hboundary

/-- Runs that end. -/
theorem Apart.dropRun (hw : Apart H h w) (run : Nat) :
    Apart H h { w with runs := Dict.restrict (fun k => k ≠ run) w.runs } := by
  refine ⟨hw.names, hw.used, fun key r hrun => hw.runs key r ?_, hw.heads, hw.boundaries⟩
  have hget := Dict.get?_restrict (fun k => decide (k ≠ run)) w.runs key
  rw [hrun] at hget
  split at hget
  · exact hget.symm
  · cases hget

theorem Apart.applied {α : Type} {x : Except SessionError α × ChildDb}
    (hw : Apart H h { w with db := x.2 }) (hstep : w.apply x = (reply, w')) :
    Apart H ((l, reply) :: h) w' := by
  obtain ⟨r, db⟩ := x
  cases r <;>
  · obtain ⟨rfl, rfl⟩ := Prod.mk.inj hstep
    exact hw.silent rfl rfl

/-- What a commit makes the head of its thread. -/
theorem commitHead_ok {heads : List (String × ThreadHead)} {cursor : Option Nat}
    {completed next : BoundaryNode} {state : WorkerState} {head : ThreadHead}
    (h : commitHead heads cursor completed next state = .ok head) :
    head.completedNode = completed ∧ head.nextNode = next ∧ head.state = state := by
  unfold commitHead at h
  dsimp only at h
  split at h
  · obtain rfl := Except.ok.inj h
    exact ⟨rfl, rfl, rfl⟩
  · cases h

/-- A run that starts is on the thread of its child, with a transcript that can be refreshed. -/
theorem startRun_ok {r : ChildRow} {runId system : String} {heads : List (String × ThreadHead)}
    {run : WorkerRun} (hstart : startRun H r runId system heads = .ok (reply, run)) :
    run.childId = r.childId ∧ run.state.threadId = H.threadOf r ∧ run.state.contract = true ∧
      safeSystemRefresh run.state.messages = true ∧ reply.use = some (r.childId, H.threadOf r) ∧
      reply.boundary = none := by
  have hcontract : decide (workerGraphRevision = workerGraphRevision) = true := decide_eq_true rfl
  unfold startRun at hstart
  dsimp only at hstart
  split at hstart
  · split at hstart
    · cases hstart
    · split at hstart
      · obtain ⟨rfl, rfl⟩ := Prod.mk.inj (Except.ok.inj hstart)
        refine ⟨rfl, rfl, hcontract, ?_, rfl, rfl⟩
        rename_i head _ _ _ _
        show safeSystemRefresh (restoreMessages system head.state.messages) = true
        cases head.state.messages with
        | nil => rfl
        | cons m ms =>
            rw [restoreMessages]
            split <;> rfl
      · cases hstart
  · split at hstart
    · obtain ⟨rfl, rfl⟩ := Prod.mk.inj (Except.ok.inj hstart)
      exact ⟨rfl, rfl, hcontract, rfl, rfl, rfl⟩
    · split at hstart
      · obtain ⟨rfl, rfl⟩ := Prod.mk.inj (Except.ok.inj hstart)
        exact ⟨rfl, rfl, hcontract, rfl, rfl, rfl⟩
      · cases hstart

theorem Apart.begin (hw : Apart H h w) {run : Nat} {childId runId system : String}
    (hstep : w.begin H run childId runId system = (reply, w')) :
    Apart H ((.begin run childId runId system, reply) :: h) w' := by
  unfold ChildWorld.begin at hstep
  cases hrow : w.db.row childId with
  | none =>
      rw [hrow] at hstep
      obtain ⟨rfl, rfl⟩ := Prod.mk.inj hstep
      exact hw.silent rfl rfl
  | some r =>
      have hclaim := @threadNames_claim H w.db childId
      have hname := mem_threadNames_of_row (H := H) hrow
      obtain rfl : r.childId = childId := Table.key_of_find? hrow
      rw [hrow] at hstep
      generalize w.db.claim r.childId = claim at hstep hclaim
      obtain ⟨claimed, db⟩ := claim
      dsimp only at hstep hclaim
      split at hstep
      · obtain ⟨rfl, rfl⟩ := Prod.mk.inj hstep
        exact hw.silent rfl rfl
      · have hw' := hw.sameNames hclaim
        split at hstep
        · obtain ⟨rfl, rfl⟩ := Prod.mk.inj hstep
          exact hw'.silent rfl rfl
        · rename_i started hstart
          obtain ⟨rfl, rfl⟩ := Prod.mk.inj hstep
          obtain ⟨hchild, hthread, hcontract, hsafe, huse, hb⟩ := startRun_ok hstart
          rw [← hclaim] at hname
          refine ⟨hw'.names, fun t c hused => ?_, fun key r' hrun => ?_, fun t => ?_,
            fun e he b hboundary => ?_⟩
          · rw [used_cons, huse] at hused
            rcases hused with hused | hused
            · obtain ⟨rfl, rfl⟩ := Prod.mk.inj (Option.some.inj hused)
              exact hname
            · exact hw'.used t c hused
          · by_cases hkey : run = key
            · subst hkey
              rw [Dict.get?_set_self, Option.some.injEq] at hrun
              subst hrun
              rw [hchild, hthread]
              exact ⟨hname, hcontract, hsafe⟩
            · rw [Dict.get?_set_of_ne hkey] at hrun
              exact hw'.runs key r' hrun
          · rw [headBoundary_cons_of_none hb]
            exact hw'.heads t
          · rcases List.mem_cons.mp he with rfl | he
            · exact absurd (hb.symm.trans hboundary) (by simp)
            · exact hw'.boundaries e he b hboundary

theorem Apart.commit (hw : Apart H h w) {run : Nat} {node : BoundaryNode}
    {tail : Option (List WorkerMessage)} {status : String} {worker : Option WorkerLoop}
    (hstep : w.commit run node tail status worker = (reply, w')) :
    Apart H ((.commit run node tail status worker, reply) :: h) w' := by
  unfold ChildWorld.commit at hstep
  split at hstep
  · obtain ⟨rfl, rfl⟩ := Prod.mk.inj hstep
    exact hw.silent rfl rfl
  · rename_i r hrun
    obtain ⟨hname, hcontract, hsafe⟩ := hw.runs run r hrun
    have hnext : safeSystemRefresh (r.next tail status worker).messages = true := by
      cases tail with
      | none => exact hsafe
      | some ms => exact decide_eq_true (p := "system" = "system") rfl
    dsimp only at hstep
    split at hstep
    · obtain ⟨rfl, rfl⟩ := Prod.mk.inj hstep
      exact hw.silent rfl rfl
    rename_i next hafter
    split at hstep
    · obtain ⟨rfl, rfl⟩ := Prod.mk.inj hstep
      exact (hw.dropRun run).silent rfl rfl
    · rename_i head hhead
      obtain ⟨rfl, rfl⟩ := Prod.mk.inj hstep
      obtain ⟨hcompleted, hlead, hstate⟩ := commitHead_ok hhead
      refine ⟨hw.names, fun t c hused => ?_, fun key r' hrun' => ?_, fun t => ?_,
        fun e he b hboundary => ?_⟩
      · rw [used_cons] at hused
        rcases hused with hused | hused
        · obtain ⟨rfl, rfl⟩ := Prod.mk.inj (Option.some.inj hused)
          exact hname
        · exact hw.used t c hused
      · by_cases hkey : run = key
        · subst hkey
          rw [Dict.get?_set_self, Option.some.injEq] at hrun'
          subst hrun'
          exact ⟨hname, hcontract, hnext⟩
        · rw [Dict.get?_set_of_ne hkey] at hrun'
          exact hw.runs key r' hrun'
      · rw [headBoundary_cons rfl, hstate]
        by_cases hthread : (r.next tail status worker).threadId = t
        · subst hthread
          rw [if_pos rfl, Dict.get?_set_self, Option.map_some]
        · rw [if_neg hthread, Dict.get?_set_of_ne hthread]
          exact hw.heads t
      · rcases List.mem_cons.mp he with rfl | he
        · obtain rfl := Option.some.inj hboundary
          rw [hstate, hcompleted, hlead]
          exact ⟨hname, hcontract, hnext, hafter⟩
        · exact hw.boundaries e he b hboundary

/-- **Every step keeps the threads apart**, where a birth repeats no thread. -/
theorem Apart.step (hw : Apart H h w) (hfresh : FreshThread H h w l)
    (hstep : ChildWorld.step H l w = (reply, w')) : Apart H ((l, reply) :: h) w' := by
  cases l with
  | spawn cap identity a u v now =>
      refine (hw.joined (joined_spawn Prod.mk.eta.symm) fun hnone hborn p hp hthread => ?_).applied hstep
      obtain ⟨r, hr, rfl⟩ := List.mem_map.mp hp
      exact hfresh hnone hborn r hr (H.subagentThreadId_eq_iff.mp hthread)
  | begin run childId runId system => exact hw.begin hstep
  | commit run node tail status worker => exact hw.commit hstep
  | stop run =>
      obtain ⟨rfl, rfl⟩ := Prod.mk.inj hstep
      exact (hw.dropRun run).silent rfl rfl
  | finish childId f u now =>
      exact (hw.sameNames (threadNames_finish Prod.mk.eta.symm)).applied hstep
  | restart cap seen requestId message u now =>
      exact (hw.sameNames (threadNames_restart Prod.mk.eta.symm)).applied hstep

/-- In every run in which no birth repeats a thread, the threads are apart. -/
theorem apart_of_run {accounts : SessionRuntime.Accounts}
    (hrun : (childWorkers H accounts).RunWhere (FreshThread H) h w) : Apart H h w := by
  refine hrun.invariant (I := Apart H) ?_ fun h w l reply w' _ hw hfresh hstep => hw.step hfresh hstep
  exact ⟨fun p hp => absurd hp (by simp [threadNames, childWorkers]), fun t c ⟨e, he, _⟩ => (by cases he),
    fun key run hrun => (by cases hrun), fun t => rfl, fun e he => (by cases he)⟩

/-! ## 7.  Boundaries that are taken up again -/

/-- The transcript of the boundary ends with tool calls exactly where it leads to the tools, and then they
are those of its actions. -/
structure ThreadHead.Resumable (head : ThreadHead) : Prop where
  tools : head.nextNode = .workerTool ↔ head.state.openCalls ≠ []
  actions : head.state.openCalls ≠ [] → ∃ actions, head.state.worker = some ⟨.tools, actions⟩ ∧
    actions.length = head.state.openCalls.length ∧ callMismatch 0 head.state.openCalls actions = none

theorem resumable_iff_of_nil {head : ThreadHead} (h : head.state.openCalls = []) :
    head.Resumable ↔ head.nextNode ≠ .workerTool :=
  ⟨fun hresumable heq => hresumable.tools.mp heq h,
    fun hne => ⟨⟨fun heq => absurd heq hne, fun hcalls => absurd h hcalls⟩, fun hcalls => absurd h hcalls⟩⟩

theorem pendingToolLoop_of_nil {s : WorkerState} (h : s.openCalls = []) : pendingToolLoop s = .ok none := by
  rw [pendingToolLoop, if_pos h]

/-- Open calls are pending when they are those of the actions; otherwise they are refused. -/
theorem pendingToolLoop_of_ne_nil {s : WorkerState} (h : s.openCalls ≠ []) :
    (∃ actions, s.worker = some ⟨.tools, actions⟩ ∧ actions.length = s.openCalls.length ∧
        callMismatch 0 s.openCalls actions = none ∧ pendingToolLoop s = .ok (some ⟨.tools, actions⟩)) ∨
      (¬ ∃ actions, s.worker = some ⟨.tools, actions⟩ ∧ actions.length = s.openCalls.length ∧
        callMismatch 0 s.openCalls actions = none) ∧ ∃ e, pendingToolLoop s = .error e := by
  unfold pendingToolLoop
  rw [if_neg h]
  split
  · rename_i actions hworker
    rw [hworker]
    split
    · rename_i hlength
      refine .inr ⟨?_, _, rfl⟩
      rintro ⟨actions', hactions, hlength', -⟩
      obtain rfl := (WorkerLoop.mk.inj (Option.some.inj hactions)).2
      exact hlength hlength'
    · rename_i hlength
      split
      · rename_i message hmismatch
        refine .inr ⟨?_, _, rfl⟩
        rintro ⟨actions', hactions, -, hnone⟩
        obtain rfl := (WorkerLoop.mk.inj (Option.some.inj hactions)).2
        cases hmismatch.symm.trans hnone
      · rename_i hnone
        exact .inl ⟨actions, rfl, not_not.mp hlength, hnone, rfl⟩
  · rename_i hother
    refine .inr ⟨?_, _, rfl⟩
    rintro ⟨actions, hactions, -⟩
    exact hother actions hactions

/-- **Which boundaries are taken up again**, of those that are not terminal. -/
theorem validateResumeBoundary_eq_ok_iff {head : ThreadHead}
    (hafter : head.state.nodeAfter head.completedNode = some head.nextNode)
    (hstatus : terminalRunStatuses.contains head.state.status = false) :
    validateResumeBoundary head = .ok () ↔ head.Resumable := by
  unfold validateResumeBoundary
  rw [hstatus, if_neg Bool.false_ne_true]
  dsimp only
  rw [hafter]
  dsimp only
  rw [if_neg (not_not.mpr rfl)]
  by_cases hcalls : head.state.openCalls = []
  · -- Nothing is pending.
    rw [pendingToolLoop_of_nil hcalls, resumable_iff_of_nil hcalls]
    simp only [Option.isSome_none, Bool.false_eq_true, false_and, if_false, Option.isNone_none, and_true]
    by_cases htools : head.nextNode = .workerTool
    · simp [htools]
    · simp [htools]
  · rcases pendingToolLoop_of_ne_nil hcalls with ⟨actions, hworker, hlength, hmatch, hok⟩ | ⟨hnot, e, he⟩
    · rw [hok]
      simp only [Option.isSome_some, true_and, Option.isNone_some, Bool.false_eq_true, and_false, if_false]
      constructor
      · intro hvalid
        have htools : head.nextNode = .workerTool := by
          by_contra hne
          rw [if_pos hne] at hvalid
          cases hvalid
        exact ⟨⟨fun _ => hcalls, fun _ => htools⟩, fun _ => ⟨actions, hworker, hlength, hmatch⟩⟩
      · intro hresumable
        rw [if_neg (not_not.mpr (hresumable.tools.mpr hcalls))]
    · rw [he]
      exact ⟨fun hok => (by cases hok), fun hresumable => absurd (hresumable.actions hcalls) hnot⟩

/-- A boundary that leads to the end is taken up again when no tool call is open.  A model step leads there
that was aborted, has failed, or was cut off once too often in its tool calls. -/
theorem resumable_iff_of_finalize {head : ThreadHead} (hnext : head.nextNode = .workerFinalize) :
    head.Resumable ↔ head.state.openCalls = [] := by
  have htools : head.nextNode ≠ .workerTool := by
    rw [hnext]
    decide
  constructor
  · intro hresumable
    by_contra hcalls
    exact htools (hresumable.tools.mpr hcalls)
  · exact fun hcalls => (resumable_iff_of_nil hcalls).mpr htools

/-! ## 8.  Retries -/

theorem threadOf_ne_empty (r : ChildRow) : H.threadOf r ≠ "" := by
  intro hempty
  have hlists := congrArg String.toList hempty
  unfold Sha256.threadOf Sha256.subagentThreadId at hlists
  simp [String.toList_append] at hlists

/-- A child has one thread. -/
theorem thread_of_mem {db : ChildDb} {childId threadId : String} {r : ChildRow}
    (hrow : db.row childId = some r) (h : (childId, threadId) ∈ threadNames H db) :
    threadId = H.threadOf r := by
  obtain ⟨r', hmem, heq⟩ := List.mem_map.mp h
  obtain ⟨hid, hthread⟩ := Prod.mk.inj heq
  obtain rfl : r' = r := Option.some.inj ((Table.find?_eq_some_iff.mpr ⟨hmem, hid⟩).symm.trans hrow)
  exact hthread.symm

/-- The last boundary of a child is the head of its thread. -/
theorem Apart.lastBoundary_eq (hw : Apart H h w) {childId : String} {r : ChildRow}
    (hrow : w.db.row childId = some r) : lastBoundary h childId = headBoundary h (H.threadOf r) := by
  unfold lastBoundary headBoundary
  refine List.find?_congr fun b hb => ?_
  obtain ⟨e, he, hboundary⟩ := List.mem_filterMap.mp hb
  have hname := (hw.boundaries e he b hboundary).1
  rw [decide_eq_decide]
  constructor
  · intro hid
    rw [hid] at hname
    exact thread_of_mem hrow hname
  · intro hthread
    exact hw.names _ hname _ (mem_threadNames_of_row hrow) hthread

/-- A boundary that is not finished has no terminal status. -/
theorem not_terminal_of_incomplete {s : WorkerState} (h : s.incomplete = true) :
    terminalRunStatuses.contains s.status = false := by
  unfold WorkerState.incomplete at h
  rcases Bool.or_eq_true .. |>.mp h with hawaiting | hrunning
  · rw [of_decide_eq_true hawaiting]
    decide
  · simpa using (Bool.and_eq_true .. |>.mp hrunning).2

/-- **A retry resumes its own checkpoint** exactly when it is one that the runner takes up again. -/
theorem Apart.resumed_iff (hw : Apart H h w) {childId : String} {r : ChildRow}
    {b : String × Nat × ThreadHead} (hrow : w.db.row childId = some r)
    (hactive : r.status.terminal = false) (hlast : lastBoundary h childId = some b)
    (hincomplete : b.2.2.state.incomplete = true) (run : Nat) (runId system : String) :
    (w.begin H run childId runId system).1 = .resumed childId (H.threadOf r) b.2.2.state ↔
      b.2.2.Resumable := by
  rw [hw.lastBoundary_eq hrow] at hlast
  have hhead := hw.heads (H.threadOf r)
  rw [hlast, Option.map_some] at hhead
  -- The boundary is a committed one: its contract holds, and its transcript can be refreshed.
  obtain ⟨e, he, hboundary⟩ := List.mem_filterMap.mp (List.mem_of_find?_eq_some hlast)
  obtain ⟨-, hcontract, hsafe, hafter⟩ := hw.boundaries e he b hboundary
  have hprior : priorIncompleteRun w.heads (H.threadOf r) = some b.2.2 := by
    unfold priorIncompleteRun
    rw [if_neg (threadOf_ne_empty r), hhead, Option.filter_some, hincomplete, hcontract]
    rfl
  have hvalid := validateResumeBoundary_eq_ok_iff hafter (not_terminal_of_incomplete hincomplete)
  have hclaim : (w.db.claim childId).1 = 1 :=
    (ChildDb.update_eq_one _ _ _ _ _).mpr ⟨r, hrow, by rw [ChildDb.claimable, hactive]; rfl⟩
  obtain rfl : r.childId = childId := Table.key_of_find? hrow
  unfold ChildWorld.begin
  rw [hrow]
  generalize w.db.claim r.childId = claim at hclaim
  obtain ⟨claimed, db⟩ := claim
  dsimp only at hclaim ⊢
  rw [if_neg (not_not.mpr hclaim)]
  unfold startRun
  dsimp only
  rw [hprior, ← hvalid]
  cases hvalidate : validateResumeBoundary b.2.2 with
  | error e => simp [hvalidate]
  | ok u => simp [hvalidate, hsafe]

end Steps

/-- A digest that tells short texts apart: the text itself, filled up to 64 characters. -/
def padded : Sha256 where
  hexdigest text := String.ofList ((text.toList ++ List.replicate 64 '0').take 64)
  length_hexdigest text := by
    rw [String.length_ofList, List.length_take, List.length_append, List.length_replicate]
    omega

/-- The identity of a host whose chats may have children. -/
def hostIdentity : RuntimeIdentity :=
  ⟨ChildDb.actionSurface, "", "", "", "", "", "", "", "", none, "", 0⟩

/-- A child with an identity of its own and the task `t`. -/
def spawnOf (childId : String) : WorkerStep :=
  .spawn ⟨4, 8, 16⟩ hostIdentity ⟨"p", "t", "", "", childId, childId ++ "c", none⟩ 0 0 1

/-- The chats of a host without any. -/
def noChats : SessionRuntime.Accounts := ⟨SessionRuntime.Registry.withRuntimes Table.empty, Table.empty⟩

/-- A child whose run is stopped after a boundary. -/
def stoppedChild : List WorkerStep :=
  [spawnOf "a", .begin 0 "a" "r" "s",
    .commit 0 .workerStep (some [⟨"user", "m", []⟩]) "running" (some ⟨.modelStep, []⟩), .stop 0]

/-- The run of the first child of a host, stopped after a boundary. -/
def stoppedRun : WorkerHistory × ChildWorld :=
  (childWorkers padded noChats).exec ([], (childWorkers padded noChats).start) stoppedChild

/-- A child that is stopped after an aborted model step with a tool call is not resumed. -/
example : ((childWorkers padded noChats).exec ([], (childWorkers padded noChats).start)
    [spawnOf "a", .begin 0 "a" "r" "s",
      .commit 0 .workerStep (some [⟨"assistant", "", [⟨"c", "t", some "\x7b\x7d"⟩]⟩]) "running"
        (some ⟨.finalize, [⟨"c", "t", some "\x7b\x7d"⟩]⟩),
      .stop 0, .begin 1 "a" "r'" "s'"]).1.head?.map (·.2) =
    some (.raised (.unavailable ("native resume pending-tool boundary is invalid: " ++
      "checkpoint ends with unmatched tool calls but does not route to tools"))) := by
  decide +kernel

end SessionCatalog
end VariantOne
