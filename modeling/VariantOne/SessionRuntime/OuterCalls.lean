import VariantOne.Core.Document
import VariantOne.Core.Dynamic
import VariantOne.Core.Text
import VariantOne.Lib.Machine
import VariantOne.Lib.Table

/-!
# Provider calls

A provider call is reserved in the durable table before its handler is dispatched, and
its outcome is recorded when the handler has returned.  A reservation that finds its row
is a replay: it hands out the recorded outcome, or settles a row that no outcome was
recorded for as uncertain.

`reserve_provider_outer_call` is two transactions then, so an execution that is still in
flight can record its outcome between them, or after both.  The machine has one step for
each transaction; a process stop forgets what its calls were about to do and keeps the
rows.
-/

namespace VariantOne
namespace SessionRuntime

/-! ## 1.  The repository -/

/-- The states of an outer call. -/
inductive OuterCallState where
  | dispatched | succeeded | failed | unknownEffect
  deriving DecidableEq, Repr

def OuterCallState.terminal : OuterCallState → Bool
  | dispatched => false
  | succeeded | failed | unknownEffect => true

/-- The fields a reservation binds. -/
structure OuterToken where
  chatId : String
  runId : String
  callId : String
  toolName : String
  requestFingerprint : String
  deriving DecidableEq

/-- A chat, a run and a call. -/
abbrev CallIdentity := String × String × String

/-- The columns an outer call is looked up by. -/
def OuterToken.key (t : OuterToken) : CallIdentity := (t.chatId, t.runId, t.callId)

/-- The row of an outer call.  The outcome is the document read back from its text. -/
structure OuterToolCall extends OuterToken where
  state : OuterCallState
  outcome : List (String × Json)
  error : String
  createdAt : ℚ
  updatedAt : ℚ

/-- `astb_outer_tool_call` -/
abbrev OuterCallTable := Table OuterToolCall CallIdentity fun r => r.key

/-- A `RuntimeError`. -/
def runtimeError (message : String) : Raised := ⟨.runtimeError, message⟩

/-- `chat_id_value` -/
def chatIdValue (value : String) : Except Raised String :=
  let chatId := strip value
  if chatId = "" ∨ 256 < chatId.length then
    .error (valueError "chat_id must contain 1-256 characters")
  else if chatId.toList.any (·.toNat < 32) then
    .error (valueError "chat_id contains control characters")
  else .ok chatId

/-- A stripped text of 1 to `limit` characters. -/
def boundedText (value : String) (limit : Nat) (message : String) : Except Raised String :=
  if strip value = "" ∨ limit < (strip value).length then .error (valueError message)
  else .ok (strip value)

/-- What a reservation checks before its transaction. -/
def OuterToken.checked (t : OuterToken) : Except Raised OuterToken := do
  let chatId ← chatIdValue t.chatId
  let runId ← boundedText t.runId 512 "outer tool run_id is invalid"
  let callId ← boundedText t.callId 512 "outer tool call_id is invalid"
  let toolName ← boundedText t.toolName 512 "outer tool name is invalid"
  let requestFingerprint ←
    boundedText t.requestFingerprint 128 "outer tool request fingerprint is invalid"
  return ⟨chatId, runId, callId, toolName, requestFingerprint⟩

/-- The row a first reservation inserts. -/
def OuterToken.dispatchedCall (t : OuterToken) (now : ℚ) : OuterToolCall :=
  { t with state := .dispatched, outcome := [], error := "", createdAt := now, updatedAt := now }

/-- `reserve_outer_tool_call`: the row, and whether it was there before.  `hasRuntime` is
the foreign key on the chat's runtime. -/
def reserveOuterToolCall (token : OuterToken) (hasRuntime : Bool) (now : ℚ)
    (t : OuterCallTable) : Except Raised ((OuterToolCall × Bool) × OuterCallTable) :=
  match token.checked with
  | .error e => .error e
  | .ok clean =>
      match t.find? clean.key with
      | some row =>
          if row.toolName ≠ clean.toolName ∨ row.requestFingerprint ≠ clean.requestFingerprint then
            .error (runtimeError "outer tool call ID conflicts with a different request")
          else .ok ((row, true), t)
      | none =>
          if ¬ hasRuntime then .error ⟨.integrityError, "FOREIGN KEY constraint failed"⟩
          else
            match t.insert? (clean.dispatchedCall now) with
            | some t => .ok ((clean.dispatchedCall now, false), t)
            | none => .error ⟨.integrityError, "UNIQUE constraint failed"⟩

/-- What a finish writes. -/
def finishChange (state : OuterCallState) (outcome : List (String × Json)) (error : String)
    (now : ℚ) (r : OuterToolCall) : OuterToolCall :=
  { r with state := state, outcome := outcome, error := error, updatedAt := now }

theorem key_finishChange (state : OuterCallState) (outcome : List (String × Json))
    (error : String) (now : ℚ) (r : OuterToolCall) :
    (finishChange state outcome error now r).key = r.key := rfl

/-- `finish_outer_tool_call`: the first terminal outcome stays. -/
def finishOuterToolCall (token : OuterToken) (state : OuterCallState) (outcome : PyDict)
    (error : String) (now : ℚ) (t : OuterCallTable) :
    Except Raised (OuterToolCall × OuterCallTable) :=
  if ¬ state.terminal then .error (valueError "outer tool terminal state is invalid")
  else
    match t.find? token.key with
    | none => .error (runtimeError "outer tool dispatch reservation is absent")
    | some row =>
        if row.requestFingerprint ≠ token.requestFingerprint then
          .error (runtimeError "outer tool request fingerprint changed")
        else if row.state.terminal then .ok (row, t)
        else
          match storedDict outcome with
          | .error e => .error e
          | .ok doc =>
              .ok (finishChange state doc (clip error 4000) now row,
                t.updateWhere (fun r => r.key == row.key)
                  (finishChange state doc (clip error 4000) now)
                  (key_finishChange state doc (clip error 4000) now))

/-! ## 2.  The broker -/

/-- The parts of an `InvocationContext` and of a call that a reservation reads. -/
structure OuterRequest where
  toolName : String
  args : PyDict
  chatId : String
  runId : String
  outerToolCallId : String

/-- The text of an uncertain outcome. -/
def uncertainMessage : String :=
  "This call crossed its durable dispatch boundary before the prior " ++
  "process stopped, but no terminal result was committed. VARIANT-1 will " ++
  "not execute it again automatically. Inspect the owning service or " ++
  "reconcile the effect before issuing a new call."

/-- `uncertain_outer_call_outcome` -/
def uncertainOuterCallOutcome (toolName : String) (args : PyDict) (callId : String) : PyDict :=
  [("tool", .str toolName), ("args", .dict args), ("result", .str uncertainMessage),
    ("model_result", .str uncertainMessage), ("ok", .bool false), ("executed", .bool true),
    ("status", .str "needs_reconciliation"), ("call_id", .str callId),
    ("source_chars", .int uncertainMessage.length),
    ("visible_chars", .int uncertainMessage.length), ("truncated", .bool false),
    ("error_class", .str "needs_reconciliation"), ("terminate", .bool false),
    ("durable_replay", .bool true)]

/-- The state an outcome is recorded with. -/
def terminalState (P : Interpreter) (outcome : PyDict) : OuterCallState :=
  if (Dict.get? outcome "ok").any (·.truthy) then .succeeded
  else if P.field outcome "status" = "needs_reconciliation" then .unknownEffect
  else .failed

/-- The rows, the executions in flight, and the replays between their two transactions. -/
structure OuterCalls where
  calls : OuterCallTable
  /-- The reservations that were told to execute and have not finished. -/
  executing : List OuterToken
  /-- The replays that found no outcome, with the outcome each hands out. -/
  settling : List (OuterToken × PyDict)

namespace OuterCalls

/-- No call, and no process. -/
def empty : OuterCalls := ⟨Table.empty, [], []⟩

def call? (s : OuterCalls) (k : CallIdentity) : Option OuterToolCall := s.calls.find? k

end OuterCalls

/-- The transactions, and what happens between them. -/
inductive OuterStep where
  /-- `reserve_provider_outer_call`, up to its first transaction. -/
  | reserve (request : OuterRequest) (hasRuntime : Bool) (now : ℚ)
  /-- The second transaction of the replay at `index`. -/
  | settle (index : Nat) (now : ℚ)
  /-- `finish_provider_outer_call` of the execution at `index`. -/
  | finish (index : Nat) (outcome : PyDict) (now : ℚ)
  /-- The execution at `index` ends without an outcome. -/
  | abandon (index : Nat)
  /-- The process stops. -/
  | stop

/-- What a step returns. -/
inductive OuterReply where
  /-- `"decision": "execute"` -/
  | execute (token : OuterToken)
  /-- `"decision": "replay"` -/
  | replay (token : OuterToken) (state : OuterCallState) (outcome : PyDict)
  /-- A replay that found no outcome has yet to settle its row. -/
  | settling (token : OuterToken)
  | recorded (record : OuterToolCall)
  | raised (e : Raised)
  | none

variable (H : Host) (P : Interpreter)

/-- The token of a reservation, when the arguments have a fingerprint. -/
def OuterRequest.token (c : OuterRequest) : Except Raised OuterToken :=
  (requestFingerprint H c.toolName (.dict c.args)).map fun fingerprint =>
    ⟨c.chatId, c.runId, c.outerToolCallId, c.toolName, fingerprint⟩

/-- `reserve_provider_outer_call`, up to its first transaction. -/
def reserveProviderOuterCall (c : OuterRequest) (hasRuntime : Bool) (now : ℚ) (s : OuterCalls) :
    OuterReply × OuterCalls :=
  match c.token H with
  | .error e => (.raised e, s)
  | .ok token =>
      match reserveOuterToolCall token hasRuntime now s.calls with
      | .error e => (.raised e, s)
      | .ok ((_, false), t) =>
          (.execute token, { s with calls := t, executing := s.executing ++ [token] })
      | .ok ((record, true), t) =>
          if record.state.terminal then
            (.replay token record.state (entriesToPy record.outcome), { s with calls := t })
          else
            (.settling token,
              { s with
                calls := t
                settling := s.settling ++
                  [(token, uncertainOuterCallOutcome c.toolName c.args c.outerToolCallId)] })

/-- The second transaction of a replay.  What `finish_outer_tool_call` returns is not
looked at: the replay hands out the uncertain outcome it was about to record. -/
def settleReplay (index : Nat) (now : ℚ) (s : OuterCalls) : OuterReply × OuterCalls :=
  match s.settling[index]? with
  | none => (.none, s)
  | some (token, uncertain) =>
      let s := { s with settling := s.settling.eraseIdx index }
      match finishOuterToolCall token .unknownEffect uncertain
          "prior process stopped after durable dispatch" now s.calls with
      | .error e => (.raised e, s)
      | .ok (_, t) => (.replay token .unknownEffect uncertain, { s with calls := t })

/-- `finish_provider_outer_call` -/
def finishProviderOuterCall (index : Nat) (outcome : PyDict) (now : ℚ) (s : OuterCalls) :
    OuterReply × OuterCalls :=
  match s.executing[index]? with
  | none => (.none, s)
  | some token =>
      let s := { s with executing := s.executing.eraseIdx index }
      let state := terminalState P outcome
      let error := if state ≠ .succeeded then clip (P.field outcome "result") 4000 else ""
      match finishOuterToolCall token state outcome error now s.calls with
      | .error e => (.raised e, s)
      | .ok (record, t) => (.recorded record, { s with calls := t })

/-- One step. -/
def OuterCalls.step : OuterStep → OuterCalls → OuterReply × OuterCalls
  | .reserve c hasRuntime now, s => reserveProviderOuterCall H c hasRuntime now s
  | .settle index now, s => settleReplay index now s
  | .finish index outcome now, s => finishProviderOuterCall P index outcome now s
  | .abandon index, s => (.none, { s with executing := s.executing.eraseIdx index })
  | .stop, s => (.none, { s with executing := [], settling := [] })

/-- The table under any interleaving of brokers, with process stops. -/
def outerCalls : Machine OuterCalls OuterStep OuterReply := ⟨.empty, OuterCalls.step H P⟩

end SessionRuntime
end VariantOne
