import VariantOne.Core.Dynamic
import VariantOne.Lib.Binding

/-!
# Tool results bound to their calls

`format_tool_result_messages` encodes one tool message for each action.  Which outcome it encodes is
decided by `_exact_outcome_segments`: the outcome that names the call, or else the first outcome of the
same tool that is left, which may be the outcome another call is still owed.

`boundToOwnCalls_iff` says when every message tells its action of the outcome of that action: exactly when
there are enough outcomes without a call id in front of those that a later action is owed.  The loop and
the condition are those of `Lib/Binding`; here it is instantiated at call ids and tool names, and the
texts of the messages are tied to what the loop bound.
-/

namespace VariantOne
namespace ModelRuntime

variable (P : Interpreter)

/-- `[row for row in rows if isinstance(row, dict)]` -/
def dictRows (rows : List PyValue) : List PyDict := rows.filterMap PyValue.dict?

/-- `[a for a in actions if isinstance(a, dict) and a.get("tool")]` -/
def toolActions (actions : List PyValue) : List PyDict :=
  (dictRows actions).filter fun a => (Dict.get? a "tool").any PyValue.truthy

/-- `str(action.get("id") or f"call_{index}")` -/
def actionCallId (a : PyDict × Nat) : String :=
  P.text (orElse (Dict.get? a.1 "id") (.str s!"call_{a.2}"))

/-- The call id of an outcome, when it is not empty. -/
def outcomeCallId (row : PyDict) : Option String :=
  let callId := P.field row "call_id"
  if callId = "" then none else some callId

/-- Actions name a call and a tool, and so do outcomes. -/
def callBinding : Binding (PyDict × Nat) PyDict String String where
  key := actionCallId P
  kind a := P.field a.1 "tool"
  owner := outcomeCallId P
  sort row := P.field row "tool"

/-- The outcome of a call without one. -/
def missingOutcome (tool callId : String) : PyDict :=
  [("tool", .str tool), ("call_id", .str callId),
    ("model_result", .str "no result returned for this call"), ("result", .str ""),
    ("ok", .bool false), ("executed", .bool false), ("source_chars", .int 0),
    ("visible_chars", .int 0), ("truncated", .bool false)]

/-- The text of an outcome: what the model is to read, or else the result. -/
def modelResult (row : PyDict) : String :=
  match Dict.get? row "model_result" with
  | none | some .none => P.text (orElse (Dict.get? row "result") (.str ""))
  | some v => P.text v

/-- The outcomes the actions take, each as an index. -/
def boundOutcomes (actions : List PyDict) (outcomes : List PyDict) : List ((PyDict × Nat) × Option Nat) :=
  (callBinding P).bind outcomes [] actions.zipIdx

/-- `_exact_outcome_segments`: the texts and the outcomes, one each for every action. -/
def exactOutcomeSegments (actions : List PyDict) (outcomes : List PyValue) : List (String × PyDict) :=
  let cleanOutcomes := dictRows outcomes
  (boundOutcomes P actions cleanOutcomes).map fun bound =>
    match bound.2.bind (cleanOutcomes[·]?) with
    | some row => (modelResult P row, row)
    | none => ("no result returned for this call",
        missingOutcome (P.field bound.1.1 "tool") (actionCallId P bound.1))

/-- `bool(outcome.get("is_error")) or outcome.get("ok") is False` -/
def isErrorOutcome (outcome : PyDict) : Bool :=
  (Dict.get? outcome "is_error").any PyValue.truthy ||
    match Dict.get? outcome "ok" with
    | some (.bool false) => true
    | _ => false

/-- The message of one action. -/
def toolResultMessage (a : PyDict × Nat) (segment : String × PyDict) : PyDict :=
  [("role", .str "tool"), ("tool_call_id", .str (actionCallId P a)), ("content", .str segment.1)] ++
    if isErrorOutcome segment.2 then [("is_error", .bool true)] else []

/-- `format_tool_result_messages` -/
def formatToolResultMessages (actions outcomes : List PyValue) : List PyDict :=
  ((toolActions actions).zipIdx.zip (exactOutcomeSegments P (toolActions actions) outcomes)).map fun bound =>
    toolResultMessage P bound.1 bound.2

/-! ## What is bound to what -/

/-- What a message tells of an outcome, given by its index. -/
def boundText (outcomes : List PyDict) (index : Option Nat) : String :=
  match index.bind (outcomes[·]?) with
  | some row => modelResult P row
  | none => "no result returned for this call"

/-- **Tool results are bound to their own calls.** -/
structure BoundToOwnCalls (actions outcomes : List PyValue) : Prop where
  /-- One message for each action, in order and with its id. -/
  complete : (formatToolResultMessages P actions outcomes).map (Dict.get? · "tool_call_id") =
    (toolActions actions).zipIdx.map fun a => some (.str (actionCallId P a))
  /-- The content of each message is that of the outcome bound to its action. -/
  told : (formatToolResultMessages P actions outcomes).map (Dict.get? · "content") =
    (boundOutcomes P (toolActions actions) (dictRows outcomes)).map fun bound =>
      some (.str (boundText P (dictRows outcomes) bound.2))
  /-- No outcome is used twice. -/
  once : ((boundOutcomes P (toolActions actions) (dictRows outcomes)).filterMap Prod.snd).Nodup
  /-- An outcome with a call id is attached to the action with that id only. -/
  own : ∀ bound ∈ boundOutcomes P (toolActions actions) (dictRows outcomes), ∀ j row callId,
    bound.2 = some j → (dictRows outcomes)[j]? = some row → outcomeCallId P row = some callId →
      callId = actionCallId P bound.1
  /-- An action whose id occurs among the outcomes receives the text of that outcome. -/
  received : ∀ i a row, (toolActions actions)[i]? = some a → row ∈ dictRows outcomes →
    outcomeCallId P row = some (actionCallId P (a, i)) →
      ∃ m, (formatToolResultMessages P actions outcomes)[i]? = some m ∧
        Dict.get? m "content" = some (.str (modelResult P row))

variable {P}

theorem length_exactOutcomeSegments (actions : List PyDict) (outcomes : List PyValue) :
    (exactOutcomeSegments P actions outcomes).length = actions.length := by
  have hbound : ((callBinding P).bind (dictRows outcomes) [] actions.zipIdx).map Prod.fst = actions.zipIdx :=
    Binding.map_fst_bind _ _
  have hfst := congrArg List.length hbound
  rw [List.length_map, List.length_zipIdx] at hfst
  rw [exactOutcomeSegments, List.length_map]
  exact hfst

/-- The message of the `i`-th action. -/
theorem getElem?_formatToolResultMessages {actions : List PyValue} {i : Nat} {a : PyDict}
    (ha : (toolActions actions)[i]? = some a) (outcomes : List PyValue) :
    ∃ segment, (exactOutcomeSegments P (toolActions actions) outcomes)[i]? = some segment ∧
      (formatToolResultMessages P actions outcomes)[i]? = some (toolResultMessage P (a, i) segment) := by
  have hlt := (List.getElem?_eq_some_iff.mp ha).1
  rw [← length_exactOutcomeSegments (P := P) (toolActions actions) outcomes] at hlt
  refine ⟨_, List.getElem?_eq_getElem hlt, ?_⟩
  rw [formatToolResultMessages, List.getElem?_map, (List.getElem?_zip_eq_some (z := ((a, i), _))).mpr
    ⟨?_, List.getElem?_eq_getElem hlt⟩]
  · rfl
  · rw [List.getElem?_zipIdx, ha]
    simp

theorem content_toolResultMessage (a : PyDict × Nat) (segment : String × PyDict) :
    Dict.get? (toolResultMessage P a segment) "content" = some (.str segment.1) := rfl

/-- Whatever is bound, the messages are those of the actions. -/
theorem toolCallIds_formatToolResultMessages (actions outcomes : List PyValue) :
    (formatToolResultMessages P actions outcomes).map (Dict.get? · "tool_call_id") =
      (toolActions actions).zipIdx.map fun a => some (.str (actionCallId P a)) := by
  have hlength : (toolActions actions).zipIdx.length ≤
      (exactOutcomeSegments P (toolActions actions) outcomes).length := by
    rw [length_exactOutcomeSegments, List.length_zipIdx]
  rw [formatToolResultMessages, List.map_map]
  calc _ = ((toolActions actions).zipIdx.zip (exactOutcomeSegments P (toolActions actions) outcomes)).map
        ((fun a => some (PyValue.str (actionCallId P a))) ∘ Prod.fst) := rfl
    _ = _ := by rw [← List.map_map, List.map_fst_zip hlength]

/-- Whatever is bound, the contents are those of the bound outcomes. -/
theorem contents_formatToolResultMessages (actions outcomes : List PyValue) :
    (formatToolResultMessages P actions outcomes).map (Dict.get? · "content") =
      (boundOutcomes P (toolActions actions) (dictRows outcomes)).map fun bound =>
        some (.str (boundText P (dictRows outcomes) bound.2)) := by
  have hlength : (exactOutcomeSegments P (toolActions actions) outcomes).length ≤
      (toolActions actions).zipIdx.length := by
    rw [length_exactOutcomeSegments, List.length_zipIdx]
  have htext : ∀ bound ∈ boundOutcomes P (toolActions actions) (dictRows outcomes),
      (match bound.2.bind ((dictRows outcomes)[·]?) with
        | some row => (modelResult P row, row)
        | none => ("no result returned for this call",
            missingOutcome (P.field bound.1.1 "tool") (actionCallId P bound.1))).1 =
        boundText P (dictRows outcomes) bound.2 := fun bound _ => by
    unfold boundText
    cases bound.2.bind ((dictRows outcomes)[·]?) <;> rfl
  rw [formatToolResultMessages, List.map_map]
  calc _ = ((toolActions actions).zipIdx.zip (exactOutcomeSegments P (toolActions actions) outcomes)).map
        ((fun segment => some (PyValue.str segment.1)) ∘ Prod.snd) := rfl
    _ = (exactOutcomeSegments P (toolActions actions) outcomes).map
        fun segment => some (PyValue.str segment.1) := by rw [← List.map_map, List.map_snd_zip hlength]
    _ = _ := by
        rw [exactOutcomeSegments, List.map_map]
        exact List.map_congr_left fun bound hbound => congrArg (fun s => some (PyValue.str s)) (htext bound hbound)

/-- An action that took an outcome is told its text. -/
theorem content_of_bound {actions outcomes : List PyValue} {i j : Nat} {a row : PyDict}
    (ha : (toolActions actions)[i]? = some a) (hrow : (dictRows outcomes)[j]? = some row)
    (hbound : ∀ bound ∈ boundOutcomes P (toolActions actions) (dictRows outcomes),
      bound.1 = (a, i) → bound.2 = some j) :
    ∃ m, (formatToolResultMessages P actions outcomes)[i]? = some m ∧
      Dict.get? m "content" = some (.str (modelResult P row)) := by
  obtain ⟨segment, hsegment, hmessage⟩ := getElem?_formatToolResultMessages (P := P) ha outcomes
  refine ⟨_, hmessage, ?_⟩
  rw [content_toolResultMessage]
  rw [exactOutcomeSegments, List.getElem?_map] at hsegment
  obtain ⟨bound, hat, rfl⟩ := Option.map_eq_some_iff.mp hsegment
  have hfst : bound.1 = (a, i) := by
    have hmap : ((boundOutcomes P (toolActions actions) (dictRows outcomes)).map Prod.fst)[i]? =
        (toolActions actions).zipIdx[i]? := by rw [boundOutcomes, Binding.map_fst_bind]
    rw [List.getElem?_map, hat, List.getElem?_zipIdx, ha] at hmap
    simpa using hmap
  rw [hbound bound (List.mem_of_getElem? hat) hfst, Option.bind_some, hrow]

/-- **When tool results are bound to their own calls**: every action whose id no outcome has finds an
outcome without an id before each outcome of its tool that a later action is owed, or nobody. -/
theorem boundToOwnCalls_iff {actions outcomes : List PyValue}
    (hids : ((toolActions actions).zipIdx.map (actionCallId P)).Nodup)
    (hcalls : ((dictRows outcomes).filterMap (outcomeCallId P)).Nodup) :
    BoundToOwnCalls P actions outcomes ↔
      (callBinding P).Enough (dictRows outcomes) (toolActions actions).zipIdx := by
  have hone : (callBinding P).OneOwner (dictRows outcomes) := by
    have hpairs := List.pairwise_filterMap.mp hcalls
    exact hpairs.imp fun h k hk hk' => h k hk k hk' rfl
  have hiff := Binding.onlyOwners_iff (B := callBinding P) hone hids
  constructor
  · intro hbound
    exact hiff.mp hbound.own
  · intro henough
    refine ⟨toolCallIds_formatToolResultMessages actions outcomes,
      contents_formatToolResultMessages actions outcomes, (Binding.nodup_bind [] _).1,
      hiff.mpr henough, fun i a row ha hmem hid => ?_⟩
    obtain ⟨j, hj⟩ := List.mem_iff_getElem?.mp hmem
    refine content_of_bound ha hj fun bound hin hfst => ?_
    exact Binding.own_of_onlyOwners hone Binding.fair_nil hids (hiff.mpr henough) hin hj
      (by rw [hfst]; exact hid)

/-- An interpreter that writes texts only. -/
def plainInterpreter : Interpreter :=
  ⟨fun _ => "", id, fun _ => none, id, fun _ => none, fun _ => .ok ""⟩

/-- A call of the tool `read`. -/
def readCall (id : String) : PyValue := .dict [("tool", .str "read"), ("id", .str id)]

/-- An outcome of the tool `read`. -/
def readOutcome (callId result : String) : PyValue :=
  .dict [("tool", .str "read"), ("call_id", .str callId), ("result", .str result)]

theorem boundToOwnCalls_iff_in_order :
    BoundToOwnCalls plainInterpreter [readCall "a", readCall "b"] [readOutcome "" "A", readOutcome "b" "B"] ↔
      (callBinding plainInterpreter).Enough
        (dictRows [readOutcome "" "A", readOutcome "b" "B"])
        (toolActions [readCall "a", readCall "b"]).zipIdx :=
  boundToOwnCalls_iff (by decide) (by decide)

/-- The outcome of the first call is missing: it takes that of the second one, which gets none. -/
theorem outcome_of_later_call :
    ((toolActions [readCall "a", readCall "b"]).zipIdx.map (actionCallId plainInterpreter)).Nodup ∧
      ((dictRows [readOutcome "b" "B"]).filterMap (outcomeCallId plainInterpreter)).Nodup ∧
      ¬ BoundToOwnCalls plainInterpreter [readCall "a", readCall "b"] [readOutcome "b" "B"] := by
  refine ⟨by decide, by decide, fun hbound => ?_⟩
  have hwrong := hbound.own ((_, 0), some 0) (List.mem_cons_self ..) 0 _ "b" rfl rfl rfl
  revert hwrong
  decide

end ModelRuntime
end VariantOne
