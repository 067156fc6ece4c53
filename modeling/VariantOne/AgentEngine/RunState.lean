import VariantOne.Core.Dynamic

/-!
# Run states in the snapshot store

A run state is scrubbed of inline images, checked against its contract and written as
canonical JSON, with a checksum over the state and the boundary it was captured at.  What
is read back is the document of that text: its keys are sorted, and it is known by nothing
else.

The columns of a thread that are compared or routed on are read off the state
(`stateFields`); its title, its model and its time stamps are not modelled.

`validateRunState` is the contract: the source, the schema, the revisions, the surface, a status and a work
scope of known fields, and a transition that the source allows.  It is run before a state is written and
again on what is read back.
-/

namespace VariantOne
namespace AgentEngine

/-! ## 1.  What is raised -/

/-- The exceptions of the store.  A conflict and a tombstone are checkpoint errors. -/
inductive SnapshotErrorKind where
  | durableCheckpointUnavailable | storeConflict | tombstoned
  | valueError | typeError | integrityError
  deriving DecidableEq, Repr

structure SnapshotError where
  kind : SnapshotErrorKind
  message : String
  deriving DecidableEq, Repr

def SnapshotError.value (message : String) : SnapshotError := ⟨.valueError, message⟩

def SnapshotError.unavailable (message : String) : SnapshotError :=
  ⟨.durableCheckpointUnavailable, message⟩

/-! ## 2.  The codec -/

def isContainer : Json → Bool
  | .arr _ | .obj _ => true
  | _ => false

/-- A text between brackets, without a NUL. -/
def bracketed (text : String) : Bool :=
  text.toList.head?.any ['[', '\x7b'].contains && text.toList.getLast?.any [']', '\x7d'].contains &&
    !text.toList.contains (Char.ofNat 0)

/-- What the store takes from its environment: the interpreter, the SHA-256 digest of a
text and the configured limit on a state.  The text of a value that is no text opens with
a bracket, a digit, a sign or a capital, so lowering it never gives an image type.  The text
of a list or of a dictionary stands between its brackets with the NULs of its members escaped,
and sorting keys permutes it; neither is an integer. -/
structure SnapshotCodec where
  P : Interpreter
  sha256 : List Char → String
  maxStateBytes : Nat
  lower_empty : P.lower "" = ""
  lower_str : ∀ v : PyValue, v.str? = none →
    P.lower (P.str v) ≠ "base64" ∧ "image/".toList.isPrefixOf (P.lower (P.str v)).toList = false
  str_container : ∀ v : Json, isContainer v = true → bracketed (P.str v.toPy) = true ∧
    (P.str (Json.canon v).toPy).length = (P.str v.toPy).length
  int_container : ∀ v : Json, isContainer v = true → P.int v.toPy = none

/-- `str`, with every value that is no text written in one way for its kind. -/
def plainText : PyValue → String
  | .list _ => "[...]"
  | .dict _ => "\x7b...\x7d"
  | _ => "<value>"

theorem plainText_cases (v : PyValue) :
    plainText v = "[...]" ∨ plainText v = "\x7b...\x7d" ∨ plainText v = "<value>" := by
  cases v <;> simp [plainText]

/-- A codec for concrete runs.  Its digest is the digested text itself. -/
def SnapshotCodec.plain : SnapshotCodec where
  P := ⟨plainText, id, fun _ => none, id, fun _ => none, fun _ => .ok ""⟩
  sha256 := String.ofList
  maxStateBytes := 65536
  lower_empty := rfl
  lower_str := fun v _ => by
    show plainText v ≠ "base64" ∧ "image/".toList.isPrefixOf (plainText v).toList = false
    rcases plainText_cases v with h | h | h <;> rw [h] <;> decide
  str_container := fun v hv => by
    cases v with
    | arr vs =>
        simp only [Json.canon, Json.toPy]
        exact ⟨show bracketed "[...]" = true by decide, rfl⟩
    | obj es =>
        simp only [Json.canon, Json.toPy]
        exact ⟨show bracketed "\x7b...\x7d" = true by decide, rfl⟩
    | _ => cases hv
  int_container := fun _ _ => rfl

/-- `_CODEC_VERSION` -/
def codecVersion : String := "json.zlib.v1"

/-- `_PRIVACY_REVISION` -/
def privacyRevision : Nat := 1

/-- `_IMAGE_DATA_KEYS` -/
def imageDataKeys : List String := ["initial_image_b64", "pending_image_b64", "image_b64", "data_b64"]

/-- `text.startswith("data:image/")` -/
def isImageUrl (text : String) : Bool := "data:image/".toList.isPrefixOf text.toList

/-- An image written into a text: `;base64,` stands in its first 100 characters. -/
def isInlineImage (text : String) : Bool :=
  isImageUrl text && (text.toList.take 100).tails.any (";base64,".toList.isPrefixOf ·)

/-- A text under a key of an object that holds the bytes of an image. -/
def holdsImage (imageSource : Bool) (key text : String) : Bool :=
  (decide (text ≠ "") && (imageDataKeys.contains key || (imageSource && decide (key = "data")))) ||
    (decide (key = "url" ∨ key = "image_url") && isImageUrl text)

variable (C : SnapshotCodec)

/-- `local_image_source` -/
def SnapshotCodec.imageSource (entries : PyDict) : Bool :=
  decide (C.P.lower (C.P.field entries "type") = "base64") &&
    "image/".toList.isPrefixOf (C.P.lower (C.P.field entries "media_type")).toList

mutual

/-- `_normalize_and_scrub`: strict JSON without the bytes of images, and how many were
removed. -/
def SnapshotCodec.normalizeAndScrub : PyValue → String → Except SnapshotError (Json × Nat)
  | .none, _ => .ok (.null, 0)
  | .bool b, _ => .ok (.bool b, 0)
  | .int i, _ => .ok (.int i, 0)
  | .str s, _ => if isInlineImage s then .ok (.str "", 1) else .ok (.str s, 0)
  | .float x, _ => .ok (.float x, 0)
  | .nonFinite _, path => .error (.value s!"non-finite number at {path}")
  | .list items, path | .tuple items, path =>
      (scrubItems items path 0).map fun r => (.arr r.1, r.2)
  | .dict entries, path =>
      (scrubEntries (C.imageSource entries) entries path).map fun r => (.obj r.1, r.2)
  | .bytes _, path => .error ⟨.typeError, s!"unsupported snapshot value at {path}: bytes"⟩
  | .record _, path => .error ⟨.typeError, s!"unsupported snapshot value at {path}: record"⟩
  | .foreign name, path => .error ⟨.typeError, s!"unsupported snapshot value at {path}: {name}"⟩

/-- The items of a list, numbered from `index`. -/
def SnapshotCodec.scrubItems :
    List PyValue → String → Nat → Except SnapshotError (List Json × Nat)
  | [], _, _ => .ok ([], 0)
  | v :: vs, path, index =>
      match normalizeAndScrub v s!"{path}[{index}]" with
      | .error e => .error e
      | .ok (j, n) => (scrubItems vs path (index + 1)).map fun r => (j :: r.1, n + r.2)

/-- The entries of an object. -/
def SnapshotCodec.scrubEntries (imageSource : Bool) :
    PyDict → String → Except SnapshotError (List (String × Json) × Nat)
  | [], _ => .ok ([], 0)
  | (key, item) :: entries, path =>
      if item.str?.any (holdsImage imageSource key) then
        (scrubEntries imageSource entries path).map fun r => ((key, .str "") :: r.1, r.2 + 1)
      else
        match normalizeAndScrub item s!"{path}.{key}" with
        | .error e => .error e
        | .ok (j, n) =>
            (scrubEntries imageSource entries path).map fun r => ((key, j) :: r.1, n + r.2)

end

/-! ## 3.  The contract of a run -/

/-- The entries of a JSON object. -/
abbrev Doc := List (String × Json)

/-- `RUN_STATE_SCHEMA_VERSION` -/
def runStateSchemaVersion : Int := 1

/-- `ACTION_SURFACE` -/
def actionSurface : String := "trusted-local.v1"

/-- `IPYTHON_SCHEMA_REVISION` -/
def ipythonSchemaRevision : String := "ipython.portable.v6"

/-- `graph_revision_for_source`, the one revision that is supported for a source. -/
def graphRevisionForSource (source : String) : String :=
  if source = "chat" then "chat.ipython.v2" else "worker.ipython.v2"

/-- The value of a key, if it is there. -/
def item (state : Doc) (key : String) : Option PyValue := (Dict.get? state key).map Json.toPy

/-- `str(a or b or "")`, of values that may be absent. -/
def SnapshotCodec.firstText (values : List (Option PyValue)) : String :=
  C.P.text (values.foldr orElse (.str ""))

/-- `str(state.get(key) or "")` -/
def SnapshotCodec.field (state : Doc) (key : String) : String := C.firstText [item state key]

/-- `upgrade_checkpoint_contract`: the surface and the revision, stripped where they are not
blank.  An absent revision stays absent. -/
def SnapshotCodec.upgradedField (state : Doc) (key : String) : String :=
  if strip (C.field state key) = "" then C.field state key else strip (C.field state key)

/-- The schema version of an upgraded state, if it is an integer. -/
def SnapshotCodec.upgradedSchema (state : Doc) : Option Int :=
  match Dict.get? state "state_schema_version" with
  | none | some .null => some runStateSchemaVersion
  | some (.str "") => some runStateSchemaVersion
  | some v => C.P.toInt v.toPy

/-- `validate_checkpoint_contract`, for a source and its supported revision: the error, if
there is one. -/
def SnapshotCodec.checkpointContractError (state : Doc) (source : String) : Option String :=
  let saved := C.upgradedField state "graph_revision"
  let surface := strip (C.upgradedField state "action_surface")
  if saved = "" then some "checkpoint has no recognizable graph revision"
  else if surface ≠ actionSurface then
    some s!"checkpoint action surface is unsupported ({C.P.repr surface})"
  else if saved ≠ graphRevisionForSource source then
    some s!"graph revision is unsupported for {C.P.repr source} ({C.P.repr saved})"
  else
    match C.upgradedSchema state with
    | none => some "checkpoint has an invalid state schema version"
    | some schema =>
        if schema < 1 then some s!"checkpoint has an invalid state schema version ({schema})"
        else if runStateSchemaVersion < schema then
          some s!"checkpoint state schema is newer than this runtime ({schema} > 1)"
        else none

/-- `SCOPE_TEXT_FIELDS` -/
def scopeTextFields : List String :=
  ["chat_id", "conversation_id", "branch_id", "workspace_id", "goal_id", "goal_run_id",
    "step_id", "worktree_id", "catalog_release_id"]

/-- `SCOPE_INT_FIELDS` -/
def scopeIntFields : List String := ["workspace_revision", "attempt", "kernel_generation"]

/-- `_identifier` raises. -/
def SnapshotCodec.badIdentifier : Option Json → Bool
  | none | some .null => false
  | some v =>
      let text := strip (C.P.text v.toPy)
      decide (512 < text.length) || text.toList.contains (Char.ofNat 0)

/-- `_nonnegative_int` raises. -/
def SnapshotCodec.badNonnegativeInt : Option Json → Bool
  | none | some .null | some (.str "") => false
  | some v => (C.P.toInt v.toPy).all (· < 0)

/-- A field that is not a field of a scope. -/
def unknownScopeField (key : String) : Bool := !(scopeTextFields ++ scopeIntFields).contains key

/-- The check of `work_scope`. -/
def SnapshotCodec.validateWorkScope : Option Json → Except SnapshotError Unit
  | none | some .null => .ok ()
  | some (.obj scope) =>
      if scope.any fun e => unknownScopeField e.1 then
        .error (.value "snapshot work_scope has unknown field(s)")
      else if scopeTextFields.any (fun k => C.badIdentifier (Dict.get? scope k)) ||
          scopeIntFields.any (fun k => C.badNonnegativeInt (Dict.get? scope k)) then
        .error (.value "snapshot work_scope is invalid")
      else .ok ()
  | some _ => .error (.value "snapshot work_scope must be an object")

/-- `_MAIN_TRANSITIONS` -/
def mainTransitions : List (String × String) :=
  [("init", "prepare"), ("prepare", "loop_init"), ("loop_init", "model_step"),
    ("loop_init", "tool"), ("loop_init", "main_finalize"), ("model_step", "model_step"),
    ("model_step", "tool"), ("model_step", "main_finalize"), ("tool", "model_step"),
    ("tool", "main_finalize"), ("main_finalize", "model_step"), ("main_finalize", "finalize"),
    ("finalize", "end")]

/-- `_WORKER_TRANSITIONS` -/
def workerTransitions : List (String × String) :=
  [("init", "prepare"), ("prepare", "worker_step"), ("prepare", "worker_tool"),
    ("prepare", "worker_finalize"), ("worker_step", "worker_step"),
    ("worker_step", "worker_tool"), ("worker_step", "worker_finalize"),
    ("worker_tool", "worker_step"), ("worker_tool", "worker_finalize"),
    ("worker_finalize", "finalize"), ("finalize", "end")]

/-- Leave with an error unless a condition holds. -/
def require (c : Bool) (e : SnapshotError) : Except SnapshotError Unit :=
  if c then .ok () else .error e

/-- The check of `state_schema_version`. -/
def SnapshotCodec.checkSchema (state : Doc) : Except SnapshotError Unit :=
  match C.P.toInt ((item state "state_schema_version").getD .none) with
  | none => .error (.value "snapshot has invalid state_schema_version")
  | some schema =>
      require (schema = runStateSchemaVersion)
        (.value s!"unsupported snapshot state schema: {schema}")

/-- The check of the contract. -/
def SnapshotCodec.checkContract (state : Doc) (source : String) : Except SnapshotError Unit :=
  match C.checkpointContractError state source with
  | some message => .error (.value s!"snapshot run contract is invalid: {message}")
  | none => .ok ()

/-- The transitions of a source. -/
def transitions (source : String) : List (String × String) :=
  if source = "chat" then mainTransitions else workerTransitions

/-- `_validate_run_state` -/
def SnapshotCodec.validateRunState (state : Doc) (completedNode nextNode : String) :
    Except SnapshotError Unit := do
  let source := C.field state "source"
  let surface := strip (C.field state "action_surface")
  let schema := strip (C.field state "provider_tool_schema_revision")
  require (["chat", "subagent", "automation"].contains source)
    (.value s!"unsupported snapshot source: {C.P.repr source}")
  C.checkSchema state
  C.checkContract state source
  require (surface = actionSurface)
    (.value s!"unsupported snapshot action surface: {C.P.repr surface}")
  require (schema = ipythonSchemaRevision)
    (.value s!"unsupported snapshot provider schema: {C.P.repr schema}")
  require (strip (C.field state "status") ≠ "") (.value "snapshot has no status")
  C.validateWorkScope (Dict.get? state "work_scope")
  require ((transitions source).contains (completedNode, nextNode))
    (.value s!"invalid {source} snapshot boundary: {C.P.repr completedNode} -> {C.P.repr nextNode}")

end AgentEngine
end VariantOne
