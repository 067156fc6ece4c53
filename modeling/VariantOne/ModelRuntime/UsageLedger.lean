import VariantOne.Core.Dynamic
import VariantOne.Lib.Machine
import VariantOne.Lib.Rollup

/-!
# The usage ledger

Every physical request to a provider is a row; its usage, its response and its outcome are
patched in later, in any order and any number of times.  Beside the rows a rollup table is
kept by deltas, for all requests and by session, goal, model and day.

Counts and costs are exact, and a JSON column holds what was written to it.

A row is known by its manifest, and recording one again changes nothing.  `record`, `patchUsage`,
`patchResponse` and `patchTerminal` are transactions: one that raises, because a day is out of range or an
attempt does not fit its column, leaves rows and rollups as they were.
-/

namespace VariantOne
namespace ModelRuntime

/-! ## 1.  Usage -/

/-- `_COUNT_FIELDS` -/
inductive CountField where
  | inputTokens | outputTokens | totalTokens | reasoningTokens | cachedInputTokens
  | cacheWriteInputTokens | toolPromptTokens | promptTokenVolume | uncachedInputTokens
  | tokenVolume | costUsd
  deriving DecidableEq, Repr

namespace CountField

/-- `_COUNT_FIELDS`, in order. -/
def all : List CountField :=
  [inputTokens, outputTokens, totalTokens, reasoningTokens, cachedInputTokens,
    cacheWriteInputTokens, toolPromptTokens, promptTokenVolume, uncachedInputTokens, tokenVolume,
    costUsd]

/-- The name of a field. -/
def name : CountField → String
  | inputTokens => "input_tokens"
  | outputTokens => "output_tokens"
  | totalTokens => "total_tokens"
  | reasoningTokens => "reasoning_tokens"
  | cachedInputTokens => "cached_input_tokens"
  | cacheWriteInputTokens => "cache_write_input_tokens"
  | toolPromptTokens => "tool_prompt_tokens"
  | promptTokenVolume => "prompt_token_volume"
  | uncachedInputTokens => "uncached_input_tokens"
  | tokenVolume => "token_volume"
  | costUsd => "cost_usd"

end CountField

/-- A cleaned usage. -/
structure Usage where
  /-- The counters that are not `None`. -/
  count : CountField → Option ℚ
  measurement : String
  callCategory : String
  providerReported : Bool
  estimated : Bool
  reportedFields : List CountField

variable (P : Interpreter)

/-- `_text(entries.get(key), maximum)` -/
def ledgerText (entries : PyDict) (key : String) (maximum : Nat) : String :=
  String.ofList ((P.field entries key).toList.take maximum)

/-- `_text(value)`, for an identity that is a text. -/
def ledgerIdentity (identity : String) : String := String.ofList (identity.toList.take 160)

/-- What `_usage` keeps of a token count. -/
def cleanTokens : Option PyValue → Option ℚ
  | some (.int raw) => if 0 ≤ raw then some (min raw (10 ^ 12) : ℤ) else none
  | _ => none

/-- What `_usage` keeps of a cost. -/
def cleanCost : Option PyValue → Option ℚ
  | some (.int cost) => if 0 ≤ cost ∧ cost < 10 ^ 12 then some cost else none
  | some (.float cost) => if 0 ≤ cost.value ∧ cost.value < 10 ^ 12 then some cost.value else none
  | _ => none

/-- `value.get(key) is True` -/
def isTrue (entries : PyDict) (key : String) : Bool :=
  match Dict.get? entries key with
  | some (.bool true) => true
  | _ => false

/-- The names in `value.get("reported_fields")`. -/
def reportedNames (value : PyDict) : List PyValue :=
  match Dict.get? value "reported_fields" with
  | some (.list items) | some (.tuple items) => items
  | _ => []

/-- `_usage` -/
def cleanUsage (value : PyDict) : Usage where
  count
    | .costUsd => cleanCost (Dict.get? value "cost_usd")
    | f => cleanTokens (Dict.get? value f.name)
  measurement := ledgerText P value "measurement" 80
  callCategory := ledgerText P value "call_category" 80
  providerReported := isTrue value "provider_reported"
  estimated := isTrue value "estimated"
  reportedFields := CountField.all.filter fun f =>
    (reportedNames value).any fun item => item.str? == some f.name

/-- A partial report keeps what it does not say. -/
def Usage.mergePrior (cleaned prior : Usage) : Usage :=
  { cleaned with
    count := fun f => (cleaned.count f).or (prior.count f)
    reportedFields := CountField.all.filter fun f =>
      cleaned.reportedFields.contains f || prior.reportedFields.contains f }

/-! ## 2.  Rows and rollups -/

/-- A row of `model_usage_request`. -/
structure UsageRequest where
  manifestId : String
  logicalCallId : String
  attempt : Int
  sessionId : String
  goalId : String
  runId : String
  provider : String
  model : String
  startedAt : ℚ
  metadata : List (String × String)
  usage : Option Usage
  response : PyDict
  outcome : String
  finishedAt : Option ℚ
  duration : Option ℚ

/-- The groupings of the rollup table. -/
inductive RollupKind where
  | all | session | goal | model | day
  deriving DecidableEq, Repr

/-- The key of a rollup row: its kind and its identity. -/
structure RollupKey where
  kind : RollupKind
  identity : String
  deriving DecidableEq, Repr

/-- The counters of a rollup row. -/
inductive Counter where
  | requests
  | usageObserved
  | amount (f : CountField)
  | known (f : CountField)
  | reported (f : CountField)
  deriving DecidableEq, Repr

/-- The values of the counters of a rollup row. -/
abbrev Tally := Counter → ℚ

/-- `int(condition)` -/
def indicator (condition : Bool) : ℚ := if condition then 1 else 0

/-- `(usage or {}).get(key)` -/
def countOf (usage : Option Usage) (f : CountField) : Option ℚ := usage.bind (·.count f)

/-- `key in ((usage or {}).get("reported_fields") or [])` -/
def reports (usage : Option Usage) (f : CountField) : Bool :=
  usage.any (·.reportedFields.contains f)

/-- The deltas `_rollup` adds. -/
def rollupDeltas (requestDelta : ℚ) (before after : Option Usage) : Tally
  | .requests => requestDelta
  | .usageObserved => indicator after.isSome - indicator before.isSome
  | .amount f => (countOf after f).getD 0 - (countOf before f).getD 0
  | .known f => indicator (countOf after f).isSome - indicator (countOf before f).isSome
  | .reported f => indicator (reports after f) - indicator (reports before f)

/-- The ledger: its requests, by manifest, and its rollup table. -/
structure UsageLedger where
  requests : Table UsageRequest String UsageRequest.manifestId
  rollup : List (RollupKey × Tally)

namespace UsageLedger

/-- A new ledger. -/
def empty : UsageLedger := ⟨Table.empty, []⟩

end UsageLedger

/-- What the ledger has computed for it: the UTC day of a time stamp, if it is in range,
the text of a pair of texts, and the closed form of stream diagnostics. -/
structure LedgerHost where
  day : ℚ → Except Raised String
  pairText : String → String → String
  sanitizeStreamDiagnostics : PyValue → PyDict

variable (L : LedgerHost)

/-- The rollup rows a request counts for. -/
def rollupIdentities (r : UsageRequest) (day : String) : List RollupKey :=
  [⟨.all, ""⟩, ⟨.session, r.sessionId⟩, ⟨.goal, r.goalId⟩,
    ⟨.model, L.pairText r.provider r.model⟩, ⟨.day, day⟩]

/-- `_rollup` -/
def applyRollup (r : UsageRequest) (deltas : Tally) (rollup : List (RollupKey × Tally)) :
    Except Raised (List (RollupKey × Tally)) :=
  (L.day r.startedAt).map fun day => Rollup.addAll (rollupIdentities L r day) deltas rollup

/-! ## 3.  Calls -/

/-- `manifest.get(key) or {}`.  Anything but a dictionary has no `get`. -/
def subDict (entries : PyDict) (key : String) : Except Raised PyDict :=
  match orElse (Dict.get? entries key) (.dict []) with
  | .dict es => .ok es
  | _ => .error (typeError "object has no attribute 'get'")

/-- A time stamp or a duration in range. -/
def inRange : Option PyValue → Option ℚ
  | some (.int stamp) => if 0 ≤ stamp ∧ stamp < 10 ^ 12 then some stamp else none
  | some (.float stamp) =>
      if 0 ≤ stamp.value ∧ stamp.value < 10 ^ 12 then some stamp.value else none
  | _ => none

/-- The attempt of a manifest. -/
def attemptOf : Option PyValue → Int
  | some (.int attempt) => attempt
  | _ => 0

/-- The row of a manifest. -/
def manifestRequest (manifest : PyDict) (now : ℚ) : Except Raised UsageRequest := do
  let run ← subDict manifest "run"
  let route ← subDict manifest "route"
  let generation ← subDict manifest "generation"
  let scope ← subDict run "work_scope"
  return {
    manifestId := ledgerText P manifest "manifest_id" 160
    logicalCallId := ledgerText P manifest "logical_call_id" 300
    attempt := attemptOf (Dict.get? manifest "attempt")
    sessionId := ledgerText P run "session_id" 300
    goalId := ledgerText P scope "goal_id" 300
    runId := ledgerText P run "run_id" 300
    provider := ledgerText P route "provider" 80
    model := ledgerText P route "model" 300
    startedAt := (inRange (Dict.get? manifest "captured_at")).getD now
    metadata := [
      ("parent_run_id", ledgerText P run "parent_run_id" 300),
      ("thread_id", ledgerText P run "thread_id" 300),
      ("source", ledgerText P run "source" 300),
      ("step_id", ledgerText P scope "step_id" 300),
      ("call_category", ledgerText P manifest "call_category" 80),
      ("reasoning_effort", ledgerText P generation "reasoning_effort" 24),
      ("physical_mode", ledgerText P route "physical_mode" 24),
      ("adapter", ledgerText P route "adapter" 80)]
    usage := none
    response := []
    outcome := "pending"
    finishedAt := none
    duration := none }

/-- What a call of the ledger returns. -/
inductive LedgerReply where
  | done
  | patched (changed : Bool)
  | raised (e : Raised)
  deriving DecidableEq, Repr

/-- An integer column holds 64 bits. -/
def fitsInteger (i : Int) : Bool := decide (-(2 ^ 63) ≤ i ∧ i < 2 ^ 63)

/-- `record` -/
def record (manifest : PyDict) (now : ℚ) (s : UsageLedger) : LedgerReply × UsageLedger :=
  if ledgerText P manifest "manifest_id" 160 = "" then
    (.raised ⟨.valueError, "A physical request manifest ID is required"⟩, s)
  else
    match manifestRequest P manifest now with
    | .error e => (.raised e, s)
    | .ok r =>
        if ¬ fitsInteger r.attempt then
          (.raised ⟨.overflowError, "Python int too large to convert to SQLite INTEGER"⟩, s)
        else
          match s.requests.insert? r with
          | none => (.done, s)
          | some requests =>
              match applyRollup L r (rollupDeltas 1 none none) s.rollup with
              | .error e => (.raised e, s)
              | .ok rollup => (.done, ⟨requests, rollup⟩)

/-- What a patch of the usage writes. -/
def usageChange (usage : Usage) (r : UsageRequest) : UsageRequest :=
  { r with
    usage := some usage
    outcome := if r.finishedAt.isNone then "usage_observed" else r.outcome }

theorem manifestId_usageChange (usage : Usage) (r : UsageRequest) :
    (usageChange usage r).manifestId = r.manifestId := rfl

/-- What a patch of the response writes. -/
def responseChange (response : PyDict) (r : UsageRequest) : UsageRequest :=
  { r with response := response }

theorem manifestId_responseChange (response : PyDict) (r : UsageRequest) :
    (responseChange response r).manifestId = r.manifestId := rfl

/-- What a terminal patch writes. -/
def terminalChange (outcome : String) (duration : Option ℚ) (now : ℚ) (r : UsageRequest) :
    UsageRequest :=
  { r with outcome := outcome, finishedAt := some now, duration := duration }

theorem manifestId_terminalChange (outcome : String) (duration : Option ℚ) (now : ℚ)
    (r : UsageRequest) : (terminalChange outcome duration now r).manifestId = r.manifestId := rfl

/-- `UPDATE model_usage_request SET … WHERE manifest_id=?` -/
def UsageLedger.update (s : UsageLedger) (identity : String) (f : UsageRequest → UsageRequest)
    (hf : ∀ r, (f r).manifestId = r.manifestId) : UsageLedger :=
  { s with requests := s.requests.updateWhere (fun r => decide (r.manifestId = identity)) f hf }

/-- The usage a patch writes: a partial report is merged with the prior one. -/
def patchedUsage (usage : PyDict) (isMerge : Bool) (prior : Option Usage) : Usage :=
  match prior with
  | some prior => if isMerge then (cleanUsage P usage).mergePrior prior else cleanUsage P usage
  | none => cleanUsage P usage

/-- `patch_usage` -/
def patchUsage (identity : String) (usage : PyDict) (isMerge : Bool) (s : UsageLedger) :
    LedgerReply × UsageLedger :=
  match s.requests.find? (ledgerIdentity identity) with
  | none => (.patched false, s)
  | some r =>
      let cleaned := patchedUsage P usage isMerge r.usage
      match applyRollup L r (rollupDeltas 0 r.usage (some cleaned)) s.rollup with
      | .error e => (.raised e, s)
      | .ok rollup =>
          (.patched true, { s.update (ledgerIdentity identity) (usageChange cleaned)
            (manifestId_usageChange cleaned) with rollup := rollup })

/-- `_IDENTITY_FIELDS` -/
def identityFields : List String :=
  ["provider_returned_model_id", "model_revision", "system_fingerprint", "provider_generation_id"]

/-- The identity fields of a response's metadata. -/
def responseFields (metadata : PyDict) : PyDict :=
  (identityFields.filter fun key => (Dict.get? metadata key).any (·.truthy)).map fun key =>
    (key, .str (ledgerText P metadata key 300))

/-- `patch_response` -/
def patchResponse (identity : String) (metadata : PyDict) (s : UsageLedger) :
    LedgerReply × UsageLedger :=
  match s.requests.find? (ledgerIdentity identity) with
  | none => (.patched false, s)
  | some r =>
      let response := Dict.merge r.response (responseFields P metadata)
      (.patched true, s.update (ledgerIdentity identity) (responseChange response)
        (manifestId_responseChange response))

/-- `patch_stream_diagnostics` -/
def patchStreamDiagnostics (identity : String) (value : PyValue) (s : UsageLedger) :
    LedgerReply × UsageLedger :=
  let cleaned := L.sanitizeStreamDiagnostics value
  if cleaned.isEmpty then (.patched false, s)
  else
    match s.requests.find? (ledgerIdentity identity) with
    | none => (.patched false, s)
    | some r =>
        let response := Dict.set r.response "stream" (.dict cleaned)
        (.patched true, s.update (ledgerIdentity identity) (responseChange response)
          (manifestId_responseChange response))

/-- The outcomes of a request. -/
def terminalOutcomes : List String := ["succeeded", "failed", "cancelled", "superseded", "unknown"]

/-- `patch_terminal` -/
def patchTerminal (identity outcome : String) (duration : Option PyValue) (now : ℚ)
    (s : UsageLedger) : LedgerReply × UsageLedger :=
  if ¬ terminalOutcomes.contains outcome then
    (.raised ⟨.valueError, "Invalid physical request outcome"⟩, s)
  else
    (.patched (s.requests.find? (ledgerIdentity identity)).isSome,
      s.update (ledgerIdentity identity) (terminalChange outcome (inRange duration) now)
        (manifestId_terminalChange outcome (inRange duration) now))

/-- The calls that write. -/
inductive LedgerCall where
  | record (manifest : PyDict) (now : ℚ)
  | patchUsage (identity : String) (usage : PyDict) (isMerge : Bool)
  | patchResponse (identity : String) (metadata : PyDict)
  | patchStreamDiagnostics (identity : String) (value : PyValue)
  | patchTerminal (identity outcome : String) (duration : Option PyValue) (now : ℚ)

/-- One call, which is one transaction. -/
def UsageLedger.step : LedgerCall → UsageLedger → LedgerReply × UsageLedger
  | .record manifest now, s => ModelRuntime.record P L manifest now s
  | .patchUsage identity usage isMerge, s => ModelRuntime.patchUsage P L identity usage isMerge s
  | .patchResponse identity metadata, s => ModelRuntime.patchResponse P identity metadata s
  | .patchStreamDiagnostics identity value, s =>
      ModelRuntime.patchStreamDiagnostics L identity value s
  | .patchTerminal identity outcome duration now, s =>
      ModelRuntime.patchTerminal identity outcome duration now s

/-- The calls on a new ledger, in any order. -/
def usageLedger : Machine UsageLedger LedgerCall LedgerReply := ⟨.empty, UsageLedger.step P L⟩

/-! ## 4.  Totals -/

/-- A row of a query: a column is `NULL` or a number. -/
abbrev Columns := Counter → Option ℚ

/-- `_totals_row` -/
def totalsRow : Option Columns → Columns
  | none => fun
      | .requests | .usageObserved | .known _ | .reported _ => some 0
      | .amount _ => none
  | some row => fun
      | .amount f => if (row (.known f)).getD 0 = 0 then none else row (.amount f)
      | c => row c

/-- `SUM(…)`, which is `NULL` where there is nothing to add. -/
def sqlSum (values : List ℚ) : Option ℚ := if values.isEmpty then none else some values.sum

/-- The counts of a field that are known. -/
def knownCounts (rows : List UsageRequest) (f : CountField) : List ℚ :=
  rows.filterMap fun r => countOf r.usage f

/-- The row scan, over the rows it selects. -/
def scanColumns (rows : List UsageRequest) : Columns
  | .requests => some rows.length
  | .usageObserved => some (rows.countP fun r => r.usage.isSome)
  | .amount f => sqlSum (knownCounts rows f)
  | .known f => some (knownCounts rows f).length
  | .reported f => sqlSum (rows.map fun r => indicator (reports r.usage f))

/-- The rows a filter selects; an empty text selects all. -/
def selected (sessionId goalId : String) (r : UsageRequest) : Bool :=
  (sessionId = "" || r.sessionId = sessionId) && (goalId = "" || r.goalId = goalId)

/-- The row scan of `totals`. -/
def rowScan (sessionId goalId : String) (s : UsageLedger) : Columns :=
  totalsRow (some (scanColumns (s.requests.rows.filter (selected sessionId goalId))))

/-- The rollup row of a single filter. -/
def rollupKey (sessionId goalId : String) : RollupKey :=
  if sessionId ≠ "" then ⟨.session, sessionId⟩
  else if goalId ≠ "" then ⟨.goal, goalId⟩
  else ⟨.all, ""⟩

/-- `totals` -/
def totals (sessionId goalId : String) (s : UsageLedger) : Columns :=
  if sessionId ≠ "" ∧ goalId ≠ "" then rowScan sessionId goalId s
  else totalsRow ((Dict.get? s.rollup (rollupKey sessionId goalId)).map fun row c => some (row c))

end ModelRuntime
end VariantOne
