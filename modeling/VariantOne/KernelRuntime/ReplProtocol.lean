import VariantOne.Core.Document
import VariantOne.Core.Dynamic
import VariantOne.Core.Fingerprint
import VariantOne.Lib.Lines

/-!
# The frames between the host and the worker

The persistent worker and the host exchange JSON objects, one a line.  The
writer encodes a frame and bounds its text; the reader bounds the line it takes
off the stream, and decodes it.  Both check on their own that the tree is finite
JSON of bounded depth, and the two bounds differ by what a terminator needs.

How a tree is written as JSON text and read back is a parameter (`JsonText`).
What is relied on is that reading is the inverse of writing, up to the order of
the keys of an object, and that a text has no raw newline (`JsonText.Lossless`).

* `finite_strict`: what the depth check lets through survives the wire;
* `readLine_encoded`: one frame, with the allowances of both sides;
* `repl_framing`: any writes, any truncation, and the frames the builders make.
-/

namespace VariantOne
namespace KernelRuntime

/-- `REPL_PROTOCOL_SCHEMA` -/
def replProtocolSchema : String := "variant1.repl-protocol.v1"

/-- `MAX_REQUEST_ID_CHARS` -/
def maxRequestIdChars : Nat := 160

/-- `REQUEST_TYPES` -/
def requestTypes : List String :=
  ["execute", "interrupt", "mount", "capsule_capture", "capsule_inspect", "capsule_restore",
    "resource_snapshot", "list_names", "shutdown"]

/-- `EVENT_TYPES` -/
def eventTypes : List String :=
  ["ready", "stdout", "stderr", "result", "display", "update_display", "clear_output", "error",
    "namespace_delta", "execution_control", "resource_snapshot", "diagnostic", "done"]

/-- `ReplProtocolError`: one control frame violated the contract. -/
structure ReplProtocolError where
  message : String
  deriving DecidableEq, Repr

abbrev Bytes := List UInt8

/-- `b"\n"` -/
def newline : UInt8 := 10

/-! ## What a frame may hold -/

mutual

/-- `_finite_json` -/
def finiteJson : PyValue → Nat → Bool
  | .none, depth | .bool _, depth | .int _, depth | .str _, depth | .float _, depth =>
      decide (depth ≤ 128)
  | .list vs, depth => decide (depth ≤ 128) && finiteItems vs (depth + 1)
  | .dict es, depth => decide (depth ≤ 128) && finiteEntries es (depth + 1)
  | .nonFinite _, _ | .bytes _, _ | .tuple _, _ | .record _, _ | .foreign _, _ => false

/-- `_finite_json`, item by item. -/
def finiteItems : List PyValue → Nat → Bool
  | [], _ => true
  | v :: vs, depth => finiteJson v depth && finiteItems vs depth

/-- `_finite_json`, entry by entry. -/
def finiteEntries : PyDict → Nat → Bool
  | [], _ => true
  | (_, v) :: es, depth => finiteJson v depth && finiteEntries es depth

end

/-- A character of `_REQUEST_ID`. -/
def isRequestIdChar (c : Char) : Bool :=
  c.isAlphanum || c == '_' || c == '.' || c == ':' || c == '-'

/-- `_REQUEST_ID.fullmatch` -/
def requestIdMatches (id : String) : Bool :=
  1 ≤ id.length && id.length ≤ 160 && id.toList.all isRequestIdChar

section Validation

variable (P : Interpreter)

/-- `_validate_common`: the type and the request id of a frame. -/
def validateCommon (frame : PyDict) : Except ReplProtocolError (String × String) :=
  if P.field frame "schema" ≠ replProtocolSchema then
    .error ⟨"REPL protocol revision is unsupported"⟩
  else
    let frameType := P.field frame "type"
    let requestId := P.field frame "id"
    if requestId ≠ "" ∧ (requestId.length > maxRequestIdChars ∨ requestIdMatches requestId = false) then
      .error ⟨"REPL request id is invalid"⟩
    else if finiteJson (.dict frame) 0 = false then
      .error ⟨"REPL frame contains a non-finite or non-JSON value"⟩
    else .ok (frameType, requestId)

/-- `validate_request` -/
def validateRequest (frame : PyDict) : Except ReplProtocolError PyDict :=
  match validateCommon P frame with
  | .error e => .error e
  | .ok (frameType, requestId) =>
      if frameType ∉ requestTypes then
        .error ⟨"unknown REPL request type: " ++ P.repr frameType⟩
      else if requestId = "" then .error ⟨"REPL request id is required"⟩
      else .ok frame

/-- `validate_event` -/
def validateEvent (frame : PyDict) : Except ReplProtocolError PyDict :=
  match validateCommon P frame with
  | .error e => .error e
  | .ok (frameType, requestId) =>
      if frameType ∉ eventTypes then
        .error ⟨"unknown REPL event type: " ++ P.repr frameType⟩
      else if frameType = "ready" then
        if requestId ≠ "" then .error ⟨"ready event must not have a request id"⟩ else .ok frame
      else if frameType ∉ ["stdout", "stderr", "diagnostic"] ∧ requestId = "" then
        .error ⟨frameType ++ " event requires a request id"⟩
      else .ok frame

/-- `request_frame` -/
def requestFrame (requestId frameType : String) (fields : PyDict) : Except ReplProtocolError PyDict :=
  validateRequest P <| Dict.merge
    [("schema", .str replProtocolSchema), ("type", .str frameType), ("id", .str requestId)] fields

/-- `event_frame` -/
def eventFrame (requestId : Option String) (frameType : String) (fields : PyDict) :
    Except ReplProtocolError PyDict :=
  validateEvent P <| Dict.merge
    [("schema", .str replProtocolSchema), ("type", .str frameType),
      ("id", .str (requestId.getD ""))] fields

end Validation

/-! ## Lines -/

/-- The JSON library as the protocol calls it. -/
structure JsonText where
  /-- `json.dumps(value, allow_nan=False, ensure_ascii=False, sort_keys=True, ..).encode("utf-8")`,
  unless it raises. -/
  dumps : Json → Option Bytes
  /-- `json.loads(body.decode("utf-8"))`, unless it raises. -/
  loads : Bytes → Option PyValue

section Lines

variable (J : JsonText)

/-- `max(1024, int(max_bytes))` -/
def frameLimit (maxBytes : Int) : Nat := (max 1024 maxBytes).toNat

/-- `encode_line`.  A tree that is finite JSON is its own strict JSON value. -/
def encodeLine (frame : PyDict) (maxBytes : Int) : Except ReplProtocolError Bytes :=
  if finiteJson (.dict frame) 0 = false then
    .error ⟨"REPL frame contains a non-finite or non-JSON value"⟩
  else
    match (VariantOne.strictJsonValue (.dict frame) "$").toOption.bind J.dumps with
    | none => .error ⟨"REPL frame is not strict JSON"⟩
    | some raw =>
        let limit := frameLimit maxBytes
        if raw.length > limit then
          .error ⟨s!"REPL frame exceeds {limit} bytes ({raw.length})"⟩
        else .ok (raw ++ [newline])

/-- `decode_line` -/
def decodeLine (raw : Bytes) (maxBytes : Int) : Except ReplProtocolError PyDict :=
  let limit := frameLimit maxBytes
  if raw.length > limit + 1 then .error ⟨s!"REPL frame exceeds {limit} bytes ({raw.length})"⟩
  else if raw.getLast? ≠ some newline then .error ⟨"REPL frame ended before newline"⟩
  else
    let body := raw.dropLast
    if body = [] then .error ⟨"REPL frame is empty"⟩
    else
      match J.loads body with
      | none => .error ⟨"REPL frame is not valid UTF-8 JSON"⟩
      | some (.dict value) =>
          if finiteJson (.dict value) 0 = false then
            .error ⟨"REPL frame contains a non-finite value"⟩
          else .ok value
      | some _ => .error ⟨"REPL frame must decode to an object"⟩

/-- `read_line`: the frame, or `None` at the end, and the stream after it. -/
def readLine (maxBytes : Int) (stream : Bytes) :
    Except ReplProtocolError (Option PyDict) × Bytes :=
  let limit := frameLimit maxBytes
  let raw := (Lines.readline newline (limit + 2) stream).1
  let rest := (Lines.readline newline (limit + 2) stream).2
  if raw = [] then (.ok none, rest)
  else if raw.length > limit + 1 ∨ raw.getLast? ≠ some newline then
    (.error ⟨"REPL frame is oversized or truncated"⟩, rest)
  else ((decodeLine J raw limit).map some, rest)

/-- `JsonLineWriter`: what it has written, and its limit. -/
structure JsonLineWriter where
  stream : Bytes
  maxBytes : Nat

/-- `JsonLineWriter.__init__` over a new stream. -/
def JsonLineWriter.new (maxBytes : Int) : JsonLineWriter := ⟨[], frameLimit maxBytes⟩

/-- `JsonLineWriter.write` -/
def JsonLineWriter.write (frame : PyDict) (w : JsonLineWriter) :
    Except ReplProtocolError Unit × JsonLineWriter :=
  match encodeLine J frame w.maxBytes with
  | .error e => (.error e, w)
  | .ok raw => (.ok (), { w with stream := w.stream ++ raw })

/-- Writing one frame after the other, whether or not they are accepted. -/
def JsonLineWriter.writeAll (w : JsonLineWriter) : List PyDict → JsonLineWriter
  | [] => w
  | frame :: frames => writeAll (w.write J frame).2 frames

/-- The frames a writer with this limit accepts. -/
def accepted (maxBytes : Int) (frames : List PyDict) : List PyDict :=
  frames.filter fun frame => (encodeLine J frame maxBytes).toBool

end Lines

/-! ## What the depth check lets through -/

theorem finiteEntries_eq_all (es : PyDict) (depth : Nat) :
    finiteEntries es depth = es.all fun p => finiteJson p.2 depth := by
  induction es with
  | nil => rfl
  | cons p es ih => rw [finiteEntries, ih, List.all_cons]

/-- The order of the entries does not matter to the check. -/
theorem finiteEntries_sort (js : List (String × Json)) (depth : Nat) :
    finiteEntries (entriesToPy (Dict.sort js)) depth = finiteEntries (entriesToPy js) depth := by
  rw [finiteEntries_eq_all, finiteEntries_eq_all, entriesToPy_eq_map, entriesToPy_eq_map]
  exact ((Dict.sort_perm js).map _).all_eq

mutual

/-- **What the check lets through** is strict JSON, and passes it again when it is
read back. -/
theorem finite_strict (v : PyValue) {depth : Nat} (path : String) (h : finiteJson v depth = true) :
    ∃ j, VariantOne.strictJsonValue v path = .ok j ∧ finiteJson j.canon.toPy depth = true := by
  cases v with
  | none | bool | int | float | str => exact ⟨_, rfl, h⟩
  | nonFinite | bytes | tuple | record | foreign => exact absurd h (by simp [finiteJson])
  | list vs =>
      rw [finiteJson, Bool.and_eq_true] at h
      obtain ⟨js, hjs, hfinite⟩ := finite_strictItems vs path 0 h.2
      refine ⟨.arr js, by rw [VariantOne.strictJsonValue, hjs]; rfl, ?_⟩
      rw [Json.canon, Json.toPy, finiteJson, h.1, hfinite]
      rfl
  | dict es =>
      rw [finiteJson, Bool.and_eq_true] at h
      obtain ⟨js, hjs, hfinite⟩ := finite_strictEntries es path h.2
      refine ⟨.obj js, by rw [VariantOne.strictJsonValue, hjs]; rfl, ?_⟩
      rw [Json.canon, Json.toPy, finiteJson, h.1, finiteEntries_sort, hfinite]
      rfl

theorem finite_strictItems (vs : List PyValue) {depth : Nat} (path : String) (index : Nat)
    (h : finiteItems vs depth = true) :
    ∃ js, strictItems vs path index = .ok js ∧
      finiteItems (itemsToPy (Json.canonItems js)) depth = true := by
  cases vs with
  | nil => exact ⟨[], rfl, rfl⟩
  | cons v vs =>
      rw [finiteItems, Bool.and_eq_true] at h
      obtain ⟨j, hj, hfinite⟩ := finite_strict v s!"{path}[{index}]" h.1
      obtain ⟨js, hjs, hrest⟩ := finite_strictItems vs path (index + 1) h.2
      refine ⟨j :: js, by rw [strictItems, hj]; simp [hjs, Except.map], ?_⟩
      rw [Json.canonItems, itemsToPy, finiteItems, hfinite, hrest]
      rfl

theorem finite_strictEntries (es : PyDict) {depth : Nat} (path : String)
    (h : finiteEntries es depth = true) :
    ∃ js, strictEntries es path = .ok js ∧
      finiteEntries (entriesToPy (Json.canonEntries js)) depth = true := by
  cases es with
  | nil => exact ⟨[], rfl, rfl⟩
  | cons p es =>
      obtain ⟨k, v⟩ := p
      rw [finiteEntries, Bool.and_eq_true] at h
      obtain ⟨j, hj, hfinite⟩ := finite_strict v s!"{path}.{k}" h.1
      obtain ⟨js, hjs, hrest⟩ := finite_strictEntries es path h.2
      refine ⟨(k, j) :: js, by rw [strictEntries, hj]; simp [hjs, Except.map], ?_⟩
      rw [Json.canonEntries, entriesToPy, finiteEntries, hfinite, hrest]
      rfl

end

/-- The frame as it comes out on the other side: the same values, the keys of every
object sorted. -/
def delivered (frame : PyDict) : PyDict :=
  match strictEntries frame "$" with
  | .ok es => entriesToPy (Dict.sort (Json.canonEntries es))
  | .error _ => frame

/-- A frame that may be sent. -/
theorem delivered_of_finite {frame : PyDict} (h : finiteJson (.dict frame) 0 = true) :
    ∃ es, strictEntries frame "$" = .ok es ∧
      delivered frame = entriesToPy (Dict.sort (Json.canonEntries es)) ∧
      (Json.obj es).canon.toPy = .dict (delivered frame) ∧
      finiteJson (.dict (delivered frame)) 0 = true := by
  obtain ⟨j, hj, hfinite⟩ := finite_strict (.dict frame) "$" h
  rw [VariantOne.strictJsonValue, except_map_eq_ok] at hj
  obtain ⟨es, hes, rfl⟩ := hj
  have hdelivered : delivered frame = entriesToPy (Dict.sort (Json.canonEntries es)) := by
    rw [delivered, hes]
  have hcanon : (Json.obj es).canon.toPy = .dict (delivered frame) := by
    rw [Json.canon, Json.toPy, hdelivered]
  exact ⟨es, hes, hdelivered, hcanon, hcanon ▸ hfinite⟩

/-! ## One frame on the stream -/

/-- What the protocol relies on: reading is the inverse of writing, up to the order of
keys; a text has no raw newline; and an empty text is not JSON. -/
structure JsonText.Lossless (J : JsonText) : Prop where
  loads_dumps : ∀ {j raw}, J.dumps j = some raw → J.loads raw = some j.canon.toPy
  no_newline : ∀ {j raw}, J.dumps j = some raw → newline ∉ raw
  loads_nil : J.loads [] = none

section OneFrame

variable {J : JsonText} {maxBytes : Int} {frame : PyDict} {line : Bytes}

theorem frameLimit_frameLimit : frameLimit (frameLimit maxBytes) = frameLimit maxBytes := by
  unfold frameLimit
  omega

/-- What `encode_line` gives. -/
theorem encodeLine_eq_ok (h : encodeLine J frame maxBytes = .ok line) :
    ∃ es raw, finiteJson (.dict frame) 0 = true ∧ strictEntries frame "$" = .ok es ∧
      J.dumps (.obj es) = some raw ∧ raw.length ≤ frameLimit maxBytes ∧ line = raw ++ [newline] := by
  unfold encodeLine at h
  split at h
  · exact absurd h (by simp)
  · rename_i hfinite
    rw [Bool.not_eq_false] at hfinite
    obtain ⟨es, hes, -⟩ := delivered_of_finite hfinite
    rw [VariantOne.strictJsonValue, hes] at h
    change (match J.dumps (.obj es) with | none => _ | some raw => _) = _ at h
    cases hraw : J.dumps (.obj es) with
    | none => rw [hraw] at h; exact absurd h (by simp)
    | some raw =>
        rw [hraw] at h
        dsimp only at h
        split at h
        · exact absurd h (by simp)
        · exact ⟨es, raw, hfinite, hes, hraw, Nat.le_of_not_gt ‹_›, (Except.ok.inj h).symm⟩

/-- **One frame**: the reader's allowances are just enough for what the writer's bound
lets out. -/
theorem readLine_encoded (hJ : J.Lossless) (h : encodeLine J frame maxBytes = .ok line) :
    ∃ raw, line = raw ++ [newline] ∧ newline ∉ raw ∧ raw.length ≤ frameLimit maxBytes ∧
      ∀ rest, readLine J maxBytes (raw ++ newline :: rest) = (.ok (some (delivered frame)), rest) := by
  obtain ⟨es, raw, hfinite, hes, hraw, hlen, rfl⟩ := encodeLine_eq_ok h
  obtain ⟨es', hes', -, hcanon, hdelivered⟩ := delivered_of_finite hfinite
  obtain rfl := Except.ok.inj (hes.symm.trans hes')
  have hnewline := hJ.no_newline hraw
  have hloads := hJ.loads_dumps hraw
  have hne : raw ≠ [] := fun hnil => by
    rw [hnil, hJ.loads_nil] at hloads
    exact absurd hloads (by simp)
  refine ⟨raw, rfl, hnewline, hlen, fun rest => ?_⟩
  unfold readLine
  dsimp only
  rw [Lines.readline_line hnewline (by omega)]
  dsimp only
  rw [if_neg (by simp), if_neg (by simp; omega)]
  unfold decodeLine
  rw [frameLimit_frameLimit]
  dsimp only
  rw [if_neg (by simp; omega), if_neg (by simp), if_neg (by simpa using hne),
    List.dropLast_concat, hloads, hcanon]
  dsimp only
  rw [if_neg (by simp [hdelivered])]
  rfl

theorem readLine_end : readLine J maxBytes [] = (.ok none, []) := by
  unfold readLine
  dsimp only
  rw [Lines.readline_tail (by simp) (by simp)]
  rfl

/-- A line that was cut before its terminator. -/
theorem readLine_cut {cut : Bytes} (hcut : newline ∉ cut) (hlen : cut.length ≤ frameLimit maxBytes) :
    ∃ r, readLine J maxBytes cut = (r, []) ∧ (r = .ok none ∨ ∃ e, r = .error e) := by
  unfold readLine
  dsimp only
  rw [Lines.readline_tail hcut (by omega)]
  dsimp only
  split
  · exact ⟨_, rfl, .inl rfl⟩
  · rw [if_pos (.inr fun h => hcut (List.mem_of_getLast? h))]
    exact ⟨_, rfl, .inr ⟨_, rfl⟩⟩

end OneFrame

/-! ## What a writer leaves on the stream -/

section Stream

variable {J : JsonText} {maxBytes : Int}

/-- The text of a frame, without its terminator. -/
def lineText (J : JsonText) (maxBytes : Int) (frame : PyDict) : Bytes :=
  match encodeLine J frame maxBytes with
  | .ok line => line.dropLast
  | .error _ => []

theorem lineText_of_accepted (hJ : J.Lossless) {frame : PyDict}
    (h : (encodeLine J frame maxBytes).toBool = true) :
    encodeLine J frame maxBytes = .ok (lineText J maxBytes frame ++ [newline]) ∧
      newline ∉ lineText J maxBytes frame ∧
      (lineText J maxBytes frame).length ≤ frameLimit maxBytes ∧
      ∀ rest, readLine J maxBytes (lineText J maxBytes frame ++ newline :: rest) =
        (.ok (some (delivered frame)), rest) := by
  cases henc : encodeLine J frame maxBytes with
  | error e => rw [henc] at h; exact absurd h (by simp [Except.toBool])
  | ok line =>
      obtain ⟨raw, rfl, hnewline, hlen, hread⟩ := readLine_encoded hJ henc
      have htext : lineText J maxBytes frame = raw := by
        rw [lineText, henc]
        exact List.dropLast_concat
      rw [htext]
      exact ⟨rfl, hnewline, hlen, hread⟩

/-- A writer appends a line for every frame it accepts, and nothing for the others. -/
theorem stream_writeAll (hJ : J.Lossless) (frames : List PyDict) (w : JsonLineWriter)
    (hw : w.maxBytes = frameLimit maxBytes) :
    (w.writeAll J frames).stream =
      w.stream ++ Lines.lines newline ((accepted J maxBytes frames).map (lineText J maxBytes)) := by
  have hlimit (frame : PyDict) : encodeLine J frame w.maxBytes = encodeLine J frame maxBytes := by
    unfold encodeLine
    rw [hw, frameLimit_frameLimit]
  induction frames generalizing w with
  | nil => simp [JsonLineWriter.writeAll, accepted]
  | cons frame frames ih =>
      rw [JsonLineWriter.writeAll, accepted, List.filter_cons, ← accepted]
      have hmax : (w.write J frame).2.maxBytes = w.maxBytes := by
        unfold JsonLineWriter.write
        split <;> rfl
      rw [ih _ (hmax.trans hw) fun frame => hmax ▸ hlimit frame]
      unfold JsonLineWriter.write
      rw [hlimit]
      cases henc : encodeLine J frame maxBytes with
      | error e => simp [Except.toBool]
      | ok line =>
          have haccepted : (encodeLine J frame maxBytes).toBool = true := by rw [henc]; rfl
          have hline := (lineText_of_accepted hJ haccepted).1
          obtain rfl := Except.ok.inj (henc.symm.trans hline)
          simp [Except.toBool, Lines.lines_cons]

end Stream

/-! ## The frames of the builders -/

/-- `str` of a list or a dictionary starts with a bracket. -/
structure Bracketed (P : Interpreter) : Prop where
  list : ∀ vs, (P.str (.list vs)).toList.head? = some '['
  dict : ∀ es, (P.str (.dict es)).toList.head? = some '\x7b'

/-- A text that is not that of a list or a dictionary. -/
def Unbracketed (s : String) : Prop := s.toList.head? ≠ some '[' ∧ s.toList.head? ≠ some '\x7b'

section Builders

variable {P : Interpreter} {frame : PyDict}

theorem finite_of_get? (hfinite : finiteJson (.dict frame) 0 = true) {key : String} {v : PyValue}
    (hk : Dict.get? frame key = some v) : finiteJson v 1 = true := by
  rw [finiteJson, Bool.and_eq_true, finiteEntries_eq_all, List.all_eq_true] at hfinite
  exact hfinite.2 (key, v) (Dict.mem_of_get? hk)

/-- A value whose text is not that of a list or dictionary has the same text when it is
read back. -/
theorem text_canon (hP : Bracketed P) {v : PyValue} {path : String} {j : Json}
    (hfinite : finiteJson v 1 = true) (hj : VariantOne.strictJsonValue v path = .ok j)
    (htext : Unbracketed (P.text (orElse (some v) (.str "")))) :
    P.text (orElse (some j.canon.toPy) (.str "")) = P.text (orElse (some v) (.str "")) := by
  cases v with
  | none | bool | int | float | str =>
      obtain rfl := Except.ok.inj hj
      rfl
  | nonFinite | bytes | tuple | record | foreign => exact absurd hfinite (by simp [finiteJson])
  | list vs =>
      cases vs with
      | nil =>
          obtain rfl := Except.ok.inj hj
          rfl
      | cons v vs => exact absurd (hP.list _) htext.1
  | dict es =>
      cases es with
      | nil =>
          obtain rfl := Except.ok.inj hj
          rfl
      | cons p es => exact absurd (hP.dict _) htext.2

/-- A field whose text is not that of a list or dictionary reads alike on both sides. -/
theorem field_delivered (hP : Bracketed P) (hfinite : finiteJson (.dict frame) 0 = true)
    {key : String} (hfield : Unbracketed (P.field frame key)) :
    P.field (delivered frame) key = P.field frame key := by
  obtain ⟨es, hes, hdelivered, -⟩ := delivered_of_finite hfinite
  unfold Interpreter.field at hfield ⊢
  rw [hdelivered, get?_entriesToPy, Dict.get?_sort, get?_canonEntries]
  cases hk : Dict.get? frame key with
  | none =>
      have hnone : Dict.get? es key = none := by
        rw [Dict.get?_eq_none_iff, keys_of_strictEntries hes, ← Dict.get?_eq_none_iff]
        exact hk
      rw [hnone]
      rfl
  | some v =>
      obtain ⟨j, hj, hget⟩ := get?_of_strictEntries hes hk
      rw [hk] at hfield
      rw [hget, Option.map_some, Option.map_some]
      exact text_canon hP (finite_of_get? hfinite hk) hj hfield

theorem unbracketed_requestId {id : String} (h : requestIdMatches id = true) : Unbracketed id := by
  unfold requestIdMatches at h
  rw [Bool.and_eq_true, List.all_eq_true] at h
  constructor <;>
    exact fun hhead => absurd (h.2 _ (List.mem_of_head? hhead)) (by decide)

/-- What `_validate_common` gives. -/
theorem validateCommon_eq_ok {frameType requestId : String}
    (h : validateCommon P frame = .ok (frameType, requestId)) :
    P.field frame "schema" = replProtocolSchema ∧ P.field frame "type" = frameType ∧
      P.field frame "id" = requestId ∧ (requestId = "" ∨ requestIdMatches requestId = true) ∧
      finiteJson (.dict frame) 0 = true := by
  unfold validateCommon at h
  split at h
  · exact absurd h (by simp)
  · dsimp only at h
    split at h
    · exact absurd h (by simp)
    · split at h
      · exact absurd h (by simp)
      · rename_i hschema hid hfinite
        obtain ⟨rfl, rfl⟩ := Prod.mk.inj (Except.ok.inj h)
        refine ⟨not_not.mp hschema, rfl, rfl, ?_, by simpa using hfinite⟩
        by_cases hempty : P.field frame "id" = ""
        · exact .inl hempty
        · exact .inr (by simpa using fun hmatch => hid ⟨hempty, .inr hmatch⟩)

/-- A frame is checked alike on both sides. -/
theorem validateCommon_delivered (hP : Bracketed P) {frameType requestId : String}
    (h : validateCommon P frame = .ok (frameType, requestId)) (htype : Unbracketed frameType) :
    validateCommon P (delivered frame) = .ok (frameType, requestId) := by
  obtain ⟨hschema, rfl, rfl, hid, hfinite⟩ := validateCommon_eq_ok h
  obtain ⟨-, -, -, -, hdelivered⟩ := delivered_of_finite hfinite
  have hunbracketed : Unbracketed (P.field frame "id") := by
    rcases hid with hid | hid
    · rw [hid]
      exact ⟨by simp, by simp⟩
    · exact unbracketed_requestId hid
  rw [← h]
  unfold validateCommon
  rw [field_delivered hP hfinite (by rw [hschema]; constructor <;> decide),
    field_delivered hP hfinite htype, field_delivered hP hfinite hunbracketed, hdelivered, hfinite]

theorem unbracketed_type {frameType : String} (h : frameType ∈ requestTypes ++ eventTypes) :
    Unbracketed frameType := by
  have hall : ∀ s ∈ requestTypes ++ eventTypes, s.toList.head? ≠ some '[' ∧ s.toList.head? ≠ some '\x7b' := by
    decide
  exact hall frameType h

theorem validateRequest_delivered (hP : Bracketed P) {request : PyDict}
    (h : validateRequest P frame = .ok request) :
    request = frame ∧ validateRequest P (delivered frame) = .ok (delivered frame) := by
  unfold validateRequest at h ⊢
  cases hcommon : validateCommon P frame with
  | error e => rw [hcommon] at h; exact absurd h (by simp)
  | ok p =>
      obtain ⟨frameType, requestId⟩ := p
      rw [hcommon] at h
      dsimp only at h
      split at h
      · exact absurd h (by simp)
      · rename_i htype
        rw [validateCommon_delivered hP hcommon
          (unbracketed_type (List.mem_append_left _ (not_not.mp htype)))]
        dsimp only
        rw [if_neg htype]
        split at h
        · exact absurd h (by simp)
        · rename_i hid
          rw [if_neg hid]
          exact ⟨(Except.ok.inj h).symm, rfl⟩

theorem validateEvent_delivered (hP : Bracketed P) {event : PyDict}
    (h : validateEvent P frame = .ok event) :
    event = frame ∧ validateEvent P (delivered frame) = .ok (delivered frame) := by
  unfold validateEvent at h ⊢
  cases hcommon : validateCommon P frame with
  | error e => rw [hcommon] at h; exact absurd h (by simp)
  | ok p =>
      obtain ⟨frameType, requestId⟩ := p
      rw [hcommon] at h
      dsimp only at h
      split at h
      · exact absurd h (by simp)
      · rename_i htype
        rw [validateCommon_delivered hP hcommon
          (unbracketed_type (List.mem_append_right _ (not_not.mp htype)))]
        dsimp only
        rw [if_neg htype]
        split at h
        · rename_i hready
          rw [if_pos hready]
          split at h
          · exact absurd h (by simp)
          · rename_i hid
            rw [if_neg hid]
            exact ⟨(Except.ok.inj h).symm, rfl⟩
        · rename_i hready
          rw [if_neg hready]
          split at h
          · exact absurd h (by simp)
          · rename_i hid
            rw [if_neg hid]
            exact ⟨(Except.ok.inj h).symm, rfl⟩

end Builders

/-- What reading these frames gives. -/
def results (frames : List PyDict) : List (Except ReplProtocolError (Option PyDict)) :=
  frames.map fun frame => .ok (some (delivered frame))

/-- **REPL framing is exact.**  Whatever frames are written, reading the stream under the
same limit gives the accepted ones and then `None`; a stream that was cut anywhere gives
some of the first of them and then `None` or an error; and a frame that a builder made and
the writer accepts passes the validation of the other side. -/
theorem repl_framing {J : JsonText} (hJ : J.Lossless) {P : Interpreter} (hP : Bracketed P)
    (maxBytes : Int) :
    (∀ frames, ∀ stream, stream = ((JsonLineWriter.new maxBytes).writeAll J frames).stream →
      (∀ m, Lines.reads (readLine J maxBytes) ((accepted J maxBytes frames).length + m) stream =
        results (accepted J maxBytes frames) ++ List.replicate m (.ok none)) ∧
      ∀ n, ∃ k ≤ (accepted J maxBytes frames).length, ∃ last,
        (last = .ok none ∨ ∃ e, last = .error e) ∧
        ∀ m, Lines.reads (readLine J maxBytes) (k + (m + 1)) (stream.take n) =
          results ((accepted J maxBytes frames).take k) ++ last :: List.replicate m (.ok none)) ∧
    (∀ requestId frameType fields frame, requestFrame P requestId frameType fields = .ok frame →
      ∀ line, encodeLine J frame maxBytes = .ok line →
        readLine J maxBytes line = (.ok (some (delivered frame)), []) ∧
          validateRequest P (delivered frame) = .ok (delivered frame)) ∧
    ∀ requestId frameType fields frame, eventFrame P requestId frameType fields = .ok frame →
      ∀ line, encodeLine J frame maxBytes = .ok line →
        readLine J maxBytes line = (.ok (some (delivered frame)), []) ∧
          validateEvent P (delivered frame) = .ok (delivered frame) := by
  have hread : ∀ frame line, encodeLine J frame maxBytes = .ok line →
      readLine J maxBytes line = (.ok (some (delivered frame)), []) := fun frame line h => by
    obtain ⟨raw, rfl, -, -, hread⟩ := readLine_encoded hJ h
    exact hread []
  have hvalid {f : PyDict} {fs : List PyDict} (hf : f ∈ accepted J maxBytes fs) :=
    lineText_of_accepted hJ (List.mem_filter.mp hf).2
  refine ⟨fun frames stream hstream => ?_, fun requestId frameType fields frame h line hline => ?_,
    fun requestId frameType fields frame h line hline => ?_⟩
  · rw [stream_writeAll hJ frames _ rfl] at hstream
    change stream = Lines.lines newline _ at hstream
    subst hstream
    -- Reading the lines of any of the accepted frames.
    have hlines (fs : List PyDict) (hfs : ∀ f ∈ fs, f ∈ accepted J maxBytes frames) (m : Nat)
        (rest : Bytes) :
        Lines.reads (readLine J maxBytes) (fs.length + m)
            (Lines.lines newline (fs.map (lineText J maxBytes)) ++ rest) =
          results fs ++ Lines.reads (readLine J maxBytes) m rest := by
      have hline : ∀ l ∈ fs.map (lineText J maxBytes), ∀ rest,
          readLine J maxBytes (l ++ newline :: rest) =
            ((readLine J maxBytes (l ++ [newline])).1, rest) := by
        intro l hl rest
        obtain ⟨f, hf, rfl⟩ := List.mem_map.mp hl
        obtain ⟨-, -, -, hread⟩ := hvalid (hfs f hf)
        rw [hread rest, hread []]
      have h := Lines.reads_lines hline m rest
      rw [List.length_map] at h
      rw [h, List.map_map]
      congr 1
      refine List.map_congr_left fun f hf => ?_
      obtain ⟨-, -, -, hread⟩ := hvalid (hfs f hf)
      exact congrArg Prod.fst (hread [])
    refine ⟨fun m => ?_, fun n => ?_⟩
    · have h := hlines _ (fun _ hf => hf) m []
      rw [List.append_nil, Lines.reads_end readLine_end] at h
      exact h
    · obtain ⟨k, cut, hcut, hk, hlast⟩ :=
        @Lines.take_lines _ newline ((accepted J maxBytes frames).map (lineText J maxBytes)) n
      rw [List.length_map] at hk
      have hend : newline ∉ cut ∧ cut.length ≤ frameLimit maxBytes := by
        rcases hlast with rfl | ⟨l, hl, hfront⟩
        · exact ⟨by simp, Nat.zero_le _⟩
        · obtain ⟨f, hf, rfl⟩ := List.mem_map.mp (List.mem_of_getElem? hl)
          obtain ⟨-, hnewline, hlen, -⟩ := hvalid hf
          exact ⟨fun h => hnewline (hfront.subset h), hfront.length_le.trans hlen⟩
      obtain ⟨last, hreadCut, hkind⟩ := readLine_cut (J := J) hend.1 hend.2
      refine ⟨k, hk, last, hkind, fun m => ?_⟩
      have htake := hlines ((accepted J maxBytes frames).take k)
        (fun _ hf => List.mem_of_mem_take hf) (m + 1) cut
      rw [List.length_take, Nat.min_eq_left hk, List.map_take, ← hcut] at htake
      rw [htake, Lines.reads, hreadCut, Lines.reads_end readLine_end]
  · exact ⟨hread frame line hline, by
      obtain ⟨rfl, hdelivered⟩ := validateRequest_delivered hP h
      exact hdelivered⟩
  · exact ⟨hread frame line hline, by
      obtain ⟨rfl, hdelivered⟩ := validateEvent_delivered hP h
      exact hdelivered⟩

/-! ## A text of the JSON library -/

/-- The canonical text of a tree in UTF-8. -/
def canonicalBytes (j : Json) : Bytes := (String.ofList (Json.dumps j)).toByteArray.data.toList

theorem canonicalBytes_inj {j k : Json} (h : canonicalBytes j = canonicalBytes k) :
    j.canon = k.canon := by
  unfold canonicalBytes at h
  rw [← Json.dumps_eq_dumps_iff]
  apply String.ofList_injective
  rw [← String.toByteArray_inj]
  exact ByteArray.ext (Array.toList_inj.mp h)

open Classical in
/-- Canonical JSON: a text is read as a tree that is written so. -/
noncomputable def canonicalText : JsonText where
  dumps j := if newline ∈ canonicalBytes j ∨ canonicalBytes j = [] then none
    else some (canonicalBytes j)
  loads raw := if h : raw ≠ [] ∧ ∃ j, canonicalBytes j = raw then some h.2.choose.canon.toPy else none

theorem dumps_canonicalText {j : Json} {raw : Bytes} (h : canonicalText.dumps j = some raw) :
    newline ∉ raw ∧ raw ≠ [] ∧ canonicalBytes j = raw := by
  unfold canonicalText at h
  dsimp only at h
  split at h
  · exact absurd h (by simp)
  · obtain rfl := Option.some.inj h
    rename_i hraw
    exact ⟨fun hn => hraw (.inl hn), fun hn => hraw (.inr hn), rfl⟩

open Classical in
theorem lossless_canonicalText : canonicalText.Lossless where
  loads_dumps {j raw} h := by
    obtain ⟨-, hne, hraw⟩ := dumps_canonicalText h
    have hexists : raw ≠ [] ∧ ∃ j, canonicalBytes j = raw := ⟨hne, j, hraw⟩
    unfold canonicalText
    dsimp only
    rw [dif_pos hexists, canonicalBytes_inj (hexists.2.choose_spec.trans hraw.symm)]
  no_newline h := (dumps_canonicalText h).1
  loads_nil := by
    unfold canonicalText
    dsimp only
    exact dif_neg fun h => h.1 rfl

/-- `str` as far as the brackets, and a frame with texts only. -/
def bracketInterpreter : Interpreter where
  str v := match v with
    | .list _ => "[]"
    | .dict _ => "\x7b\x7d"
    | _ => ""
  repr s := s
  int _ := none
  lower s := s
  loads _ := none
  dumps _ := .error ⟨.typeError, ""⟩

def executeFrame : PyDict :=
  [("schema", .str replProtocolSchema), ("type", .str "execute"), ("id", .str "r1"),
    ("code", .str "print(1)\n")]

def executeDocument : List (String × Json) :=
  [("schema", .str replProtocolSchema), ("type", .str "execute"), ("id", .str "r1"),
    ("code", .str "print(1)\n")]

theorem encodeLine_executeFrame :
    encodeLine canonicalText executeFrame 0 =
      .ok (canonicalBytes (.obj executeDocument) ++ [newline]) := by
  have hbytes : newline ∉ canonicalBytes (.obj executeDocument) ∧
      canonicalBytes (.obj executeDocument) ≠ [] ∧
      (canonicalBytes (.obj executeDocument)).length ≤ 1024 := by decide +kernel
  have hdumps : canonicalText.dumps (.obj executeDocument) =
      some (canonicalBytes (.obj executeDocument)) := by
    unfold canonicalText
    dsimp only
    exact if_neg (not_or.mpr ⟨hbytes.1, hbytes.2.1⟩)
  have hstrict : (VariantOne.strictJsonValue (.dict executeFrame) "$").toOption =
      some (.obj executeDocument) :=
    rfl
  unfold encodeLine
  rw [if_neg (by decide), hstrict, Option.bind_some, hdumps]
  exact if_neg (Nat.not_lt.mpr hbytes.2.2)

/-- A request whose code has a newline. -/
theorem repl_framing_execute :
    requestFrame bracketInterpreter "r1" "execute" [("code", .str "print(1)\n")] = .ok executeFrame ∧
      readLine canonicalText 0 (canonicalBytes (.obj executeDocument) ++ [newline]) =
        (.ok (some (delivered executeFrame)), []) ∧
      validateRequest bracketInterpreter (delivered executeFrame) = .ok (delivered executeFrame) := by
  have hrequest : requestFrame bracketInterpreter "r1" "execute" [("code", .str "print(1)\n")] =
      .ok executeFrame := by rfl
  have hbracketed : Bracketed bracketInterpreter := by
    constructor <;>
      · intro x
        simp [bracketInterpreter]
  exact ⟨hrequest, (repl_framing lossless_canonicalText hbracketed 0).2.1 _ _ _ _ hrequest _
    encodeLine_executeFrame⟩

end KernelRuntime
end VariantOne
