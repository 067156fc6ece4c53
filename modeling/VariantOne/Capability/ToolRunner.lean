import VariantOne.Core.Dynamic
import VariantOne.Core.SplitLines

/-!
# The tool runner

`execute_tool_batch` runs a prepared batch of calls once, one after the other in the
order the model asked for them, and answers every call with one outcome.  What a call
meets on its way (the stop predicate, the reservation, the broker, the recording of its
outcome) is given with the call as its `Behaviour`; what cannot be told from the result
is noted in a trace.

An outcome is a dictionary, for one that is replayed comes as it was stored.

What a batch returns is the lines for the model, the outcomes and the notes, one line and one outcome for
each call.  A call that is stopped, refused or replayed has an outcome too; only an interruption leaves the
batch without a result.
-/

namespace VariantOne
namespace Capability

/-! ## Texts -/

/-- `" ".join(text.split())` -/
def squeeze (text : String) : String :=
  " ".intercalate <| ((text.toList.splitBy fun a b => isSpace a == isSpace b).filter
    fun word => !word.all isSpace).map String.ofList

/-- The first line after a marker that is not empty. -/
def detailAfter (lines : List String) (marker : String) : String :=
  (((lines.dropWhile (· != marker)).drop 1).find? (· != "")).getD ""

/-- A line starts with this text, whatever the case of its letters. -/
def startsLike (P : Interpreter) (line text : String) : Bool :=
  text.toList.isPrefixOf (P.lower line).toList

/-- `_error_summary`, without `sanitize` -/
def errorSummary (P : Interpreter) (value : String) (limit : Nat) : String :=
  let text := strip value
  if text = "" then "unknown error"
  else
    let lines := (splitLines text.toList []).map fun l => strip (String.ofList l)
    let exitLine := (lines.find? (startsLike P · "exit:")).getD ""
    let stderr := detailAfter lines "--- stderr ---"
    let marked := if stderr = "" then detailAfter lines "--- stdout ---" else stderr
    let metadata := ["$ ", "shell:", "cwd:", "exit:", "duration_s:", "---"]
    let detail := if marked = "" then
      (lines.find? fun l => l != "" && !(metadata.any (startsLike P l ·))).getD text else marked
    let summary := (squeeze (" — ".intercalate ([exitLine, detail].filter (· != "")))).toList
    String.ofList (summary.take (max 1 limit) ++ if max 1 limit < summary.length then ['…'] else [])

/-! ## The batch -/

/-- A row of the prepared batch: `row["a"]`, whether a tool was bound, and what the
validation said. -/
structure PreparedCall where
  action : PyValue
  bound : Bool
  status : PyValue := .none
  validationError : PyValue := .none

/-- `ToolExecutionResult`, or the plain value a tool returned. -/
inductive ToolOutput where
  | value (v : PyValue)
  | execution (content : String) (terminate : Bool)

/-- What the runner reads of a receipt. -/
structure RunnerReceipt where
  status : String
  receiptId : String
  /-- `to_dict()` -/
  doc : PyDict
  resultValue : ToolOutput
  errorMessage : Option String
  /-- `effect and effect.attempted_at` -/
  attempted : Bool
  terminate : Bool

/-- What a reservation says. -/
inductive Reserved where
  /-- An exception: its type and its text. -/
  | raised (type text : String)
  | replay (outcome : PyDict)
  | execute

/-- What becomes of a call into the broker. -/
inductive Invoked where
  | raised (text : String)
  | receipt (r : RunnerReceipt)

/-- What a call meets on its way. -/
structure Behaviour where
  /-- `should_stop`, at the head of the loop. -/
  stopBefore : Bool
  /-- `context_for_provider` raises. -/
  contextFault : Option Raised := none
  reserved : Reserved := .execute
  /-- `should_stop`, before the broker is called. -/
  stopInside : Bool := false
  invoked : Invoked
  /-- `finish_provider_outer_call` raises: the type and the text. -/
  finishFault : Option (String × String) := none

/-- A call and what it meets. -/
abbrev BatchCall := PreparedCall × Behaviour

/-- What happens in a batch besides its result. -/
inductive BatchEvent where
  /-- The reservation said `execute`. -/
  | reserved
  /-- The broker was called. -/
  | started
  /-- The outcome went to `finish_provider_outer_call`. -/
  | finished (outcome : PyDict)
  /-- `finish_provider_outer_call` raised. -/
  | unpersisted
  /-- `br.cancelled` was set. -/
  | cancelled

/-- `ToolBatchResult` in the making, with the list of result lines and the trace: the index
of a call and what happened at it. -/
structure BatchState where
  results : List String := []
  outcomes : List PyDict := []
  receipts : List PyDict := []
  executed : Bool := false
  hadError : Bool := false
  cancelled : Bool := false
  trace : List (Nat × BatchEvent) := []

def BatchState.note (s : BatchState) (i : Nat) (e : BatchEvent) : BatchState :=
  { s with trace := s.trace ++ [(i, e)] }

section Runner

variable (P : Interpreter)

/-- `action` of `call_fields` -/
def PreparedCall.fields (c : PreparedCall) : PyDict := c.action.dict?.getD []

/-- `name` of `call_fields` -/
def PreparedCall.name (c : PreparedCall) : String :=
  P.text (orElse (Dict.get? c.fields "tool") (.str "unknown_tool"))

/-- `raw_args` of `call_fields` -/
def PreparedCall.rawArgs (c : PreparedCall) : PyDict :=
  ((Dict.get? c.fields "args").bind PyValue.dict?).getD []

/-- `call_id` of `call_fields` -/
def PreparedCall.callId (c : PreparedCall) (index : Nat) : String :=
  P.text (orElse (Dict.get? c.fields "id") (.str s!"call_{index}"))

/-- The classes of errors that the runner records. -/
inductive ErrorClass where
  | none | cancelled | timedOut | needsReconciliation | unavailable | invalidArguments | toolError
  deriving DecidableEq, Repr

/-- The text of a class. -/
def ErrorClass.text : ErrorClass → String
  | .none => ""
  | .cancelled => "cancelled"
  | .timedOut => "timed_out"
  | .needsReconciliation => "needs_reconciliation"
  | .unavailable => "unavailable"
  | .invalidArguments => "invalid_arguments"
  | .toolError => "tool_error"

/-- The status `record_outcome` derives from the class and `ok`. -/
def ErrorClass.status (c : ErrorClass) (ok : Bool) : String :=
  match c with
  | .none | .toolError => if ok then "ok" else "error"
  | c => c.text

/-- What `record_outcome` is given. -/
structure OutcomeArgs where
  result : String
  ok : Bool
  executed : Bool
  sourceResult : Option String := none
  projectedResult : Option String := none
  errorClass : ErrorClass := .none
  terminate : Bool := false
  receipt : Option RunnerReceipt := none

/-- The outcome `record_outcome` appends. -/
def outcomeOf (i : Nat) (c : PreparedCall) (a : OutcomeArgs) : PyDict :=
  let before := a.sourceResult.getD a.result
  let after := a.projectedResult.getD a.result
  [("tool", .str (c.name P)), ("args", .dict c.rawArgs), ("result", .str a.result),
    ("model_result", .str after), ("ok", .bool a.ok), ("executed", .bool a.executed),
    ("status", .str (a.errorClass.status a.ok)), ("call_id", .str (c.callId P i)),
    ("source_chars", .int before.length), ("visible_chars", .int after.length),
    ("truncated", .bool (before != after)), ("error_class", .str a.errorClass.text),
    ("terminate", .bool a.terminate)] ++
  match a.receipt with
  | Option.none => []
  | some r => [("capability_receipt", .dict r.doc), ("capability_status", .str r.status),
      ("receipt_id", .str r.receiptId)]

/-- `record_outcome`, with the line that goes with it. -/
def recordOutcome (i : Nat) (c : PreparedCall) (line : String) (a : OutcomeArgs) (s : BatchState) :
    BatchState :=
  { s with
    results := s.results ++ [line]
    outcomes := s.outcomes ++ [outcomeOf P i c a]
    receipts := s.receipts ++ (a.receipt.map (·.doc)).toList }

/-- `str(outcome.get("status") or "") in {"cancelled", "cancelled_before_start"}` -/
def isCancelled (outcome : PyDict) : Bool :=
  ["cancelled", "cancelled_before_start"].contains (P.field outcome "status")

/-- The line of a replayed outcome. -/
def replayLine (outcome : PyDict) : String :=
  let tool := P.text (orElse (Dict.get? outcome "tool") (.str "tool"))
  s!"[{tool}] " ++
    P.text (orElse (Dict.get? outcome "model_result")
      (orElse (Dict.get? outcome "result") (.str "")))

/-- `bool(outcome.get(key))` -/
def flagOf (outcome : PyDict) (key : String) : Bool :=
  ((Dict.get? outcome key).map PyValue.truthy).getD false

/-- `replay_outcome` -/
def replayOutcome (i : Nat) (value : PyDict) (s : BatchState) : BatchState :=
  let outcome := Dict.set value "durable_replay" (.bool true)
  let s' := { s with
    results := s.results ++ [replayLine P outcome]
    outcomes := s.outcomes ++ [outcome]
    receipts := s.receipts ++ ((Dict.get? outcome "capability_receipt").bind PyValue.dict?).toList
    executed := s.executed || flagOf outcome "executed"
    hadError := s.hadError || !flagOf outcome "ok"
    cancelled := s.cancelled || isCancelled P outcome }
  if isCancelled P outcome then s'.note i .cancelled else s'

/-- The message of an outcome that could not be persisted. -/
def unpersistedMessage (type : String) : String :=
  "The tool returned after dispatch, but VARIANT-1 could not persist its durable outer-call " ++
    "result. Treat the effect as needing reconciliation and do not retry automatically. (" ++
    type ++ ")"

/-- What such an outcome is updated with. -/
def unpersistedFields (fault : String × String) : PyDict :=
  let message := unpersistedMessage fault.1
  [("ok", .bool false), ("executed", .bool true), ("status", .str "needs_reconciliation"),
    ("result", .str message), ("model_result", .str message),
    ("source_chars", .int message.length), ("visible_chars", .int message.length),
    ("truncated", .bool false), ("error_class", .str "needs_reconciliation"),
    ("terminate", .bool false), ("durable_persistence_error", .str (clip fault.2 500))]

/-- `finish_outer_call` on the outcome at a position of `br.outcomes`. -/
def finishOuterCall (i position : Nat) (fault : Option (String × String)) (s : BatchState) :
    BatchState :=
  match s.outcomes[position]?, fault with
  | Option.none, _ => s
  | some outcome, Option.none => s.note i (.finished outcome)
  | some outcome, some fault =>
      let tool := P.text (orElse (Dict.get? outcome "tool") (.str "tool"))
      { s.note i (.finished outcome) with
        outcomes := s.outcomes.set position (Dict.merge outcome (unpersistedFields fault))
        hadError := true
        results := s.results.dropLast ++ (s.results.getLast?.map fun _ =>
          s!"[{tool}] " ++ unpersistedMessage fault.1).toList }.note i .unpersisted

/-- The loop of `cancel_from` over the calls that are left. -/
def cancelRest : Nat → List BatchCall → BatchState → BatchState
  | _, [], s => s
  | i, (c, _) :: calls, s =>
      cancelRest (i + 1) calls <|
        recordOutcome P i c (s!"[{c.name P}] " ++ "cancelled before execution")
          { result := "cancelled before execution", ok := false, executed := false
            errorClass := .cancelled } s

/-- `cancel_from`, which the call `i` leads to. -/
def cancelFrom (i start : Nat) (calls : List BatchCall) (s : BatchState) : BatchState :=
  cancelRest P start calls { s.note i .cancelled with cancelled := true }

/-- The message of a call whose arguments are invalid. -/
def invalidMessage (c : PreparedCall) : String :=
  P.text (orElse (some c.validationError)
    (orElse (Dict.get? c.fields "argument_error") (.str "invalid tool arguments")))

/-- `str(out.content if isinstance(out, ToolExecutionResult) else out or "")` -/
def ToolOutput.source : ToolOutput → String
  | .value v => P.text (orElse (some v) (.str ""))
  | .execution content _ => content

def ToolOutput.terminate : ToolOutput → Bool
  | .value _ => false
  | .execution _ terminate => terminate

/-- The visible part of a result. -/
def clippedOutput (maxResultChars : Nat) (source : String) : String :=
  if maxResultChars < source.length then
    clip source maxResultChars ++ s!"\n…(truncated, {source.length} chars)"
  else source

/-- What the outcome of a call records that the broker answered. -/
def ranOutcome (maxResultChars : Nat) : Invoked → OutcomeArgs
  | .raised text =>
      { result := text, ok := false, executed := true, errorClass := .toolError }
  | .receipt r =>
      if r.status = "ok" then
        let source := r.resultValue.source P
        { result := clippedOutput maxResultChars source, ok := true, executed := r.attempted
          sourceResult := some source, terminate := r.terminate || r.resultValue.terminate
          receipt := some r }
      else
        { result := r.errorMessage.getD r.status, ok := false, executed := r.attempted
          errorClass := if r.status = "timed_out" then .timedOut
            else if r.status = "needs_reconciliation" then .needsReconciliation else .toolError
          receipt := some r }

/-- The line of such a call. -/
def ranLine (c : PreparedCall) (a : OutcomeArgs) : String :=
  if a.ok then s!"[{c.name P}] " ++ a.result
  else s!"[{c.name P}] error: " ++ errorSummary P a.result 300

/-- The receipt of a call that was cancelled. -/
def Invoked.cancelledReceipt : Invoked → Option RunnerReceipt
  | .raised _ => Option.none
  | .receipt r => if ["cancelled", "cancelled_before_start"].contains r.status then some r
      else Option.none

/-- The call into the broker and what follows it, for a call that is not cancelled. -/
def runCall (maxResultChars i : Nat) (c : PreparedCall) (b : Behaviour) (s : BatchState) :
    BatchState :=
  let a := ranOutcome P maxResultChars b.invoked
  let s := recordOutcome P i c (ranLine P c a) a
    { s.note i .started with executed := s.executed || a.executed }
  finishOuterCall P i (s.outcomes.length - 1) b.finishFault
    { s with hadError := s.hadError || !a.ok }

/-- The call into the broker and what follows it, for a call that ended cancelled. -/
def runCancelled (i : Nat) (c : PreparedCall) (r : RunnerReceipt) (b : Behaviour) (s : BatchState) :
    BatchState :=
  let message := if (r.errorMessage.getD r.status) = "" then "cancelled"
    else r.errorMessage.getD r.status
  let s := recordOutcome P i c (s!"[{c.name P}] " ++ message)
    { result := message, ok := false, executed := r.attempted, errorClass := .cancelled
      receipt := some r } (s.note i .started)
  let s := finishOuterCall P i (s.outcomes.length - 1) b.finishFault s
  { s with executed := s.executed || r.attempted }

/-- The loop of `execute_tool_batch`. -/
def runBatch (maxResultChars : Nat) : Nat → List BatchCall → BatchState → Except Raised BatchState
  | _, [], s => .ok s
  | i, (c, b) :: calls, s =>
      if b.stopBefore then .ok (cancelFrom P i i ((c, b) :: calls) s)
      else if P.text (orElse (some c.status) (.str "ok")) = "invalid_arguments" then
        let message := invalidMessage P c
        runBatch maxResultChars (i + 1) calls <|
          recordOutcome P i c (s!"[{c.name P}] invalid arguments: " ++ message)
            { result := message, ok := false, executed := false, errorClass := .invalidArguments }
            { s with hadError := true }
      else if c.bound = false then
        let message := "tool not available (unknown or disabled)"
        runBatch maxResultChars (i + 1) calls <|
          recordOutcome P i c (s!"[{c.name P}] error: " ++ message)
            { result := message, ok := false, executed := false, errorClass := .unavailable }
            { s with hadError := true }
      else match b.contextFault with
        | some e => .error e
        | Option.none =>
            match b.reserved with
            | .raised type text =>
                let message := "durable outer-call admission failed before execution: " ++
                  s!"{type}: {text}"
                runBatch maxResultChars (i + 1) calls <|
                  recordOutcome P i c (s!"[{c.name P}] error: " ++ message)
                    { result := message, ok := false, executed := false
                      errorClass := .needsReconciliation } { s with hadError := true }
            | .replay outcome => runBatch maxResultChars (i + 1) calls (replayOutcome P i outcome s)
            | .execute =>
                let s := s.note i .reserved
                if b.stopInside then
                  .ok (finishOuterCall P i s.outcomes.length b.finishFault
                    (cancelFrom P i i ((c, b) :: calls) s))
                else match b.invoked.cancelledReceipt with
                  | some r => .ok (cancelFrom P i (i + 1) calls (runCancelled P i c r b s))
                  | Option.none =>
                      runBatch maxResultChars (i + 1) calls (runCall P maxResultChars i c b s)

/-- `br.terminate` at the end. -/
def BatchState.terminate (s : BatchState) : Bool :=
  !s.outcomes.isEmpty && s.outcomes.all fun o => flagOf o "terminate"

/-- `br.text` at the end. -/
def BatchState.text (s : BatchState) : String := "\n\n".intercalate s.results

/-- `execute_tool_batch` -/
def executeToolBatch (maxResultChars : Nat) (calls : List BatchCall) : Except Raised BatchState :=
  runBatch P maxResultChars 0 calls {}

end Runner

end Capability
end VariantOne
