import VariantOne.Core.Dynamic

/-!
# The message graph

`build_message_graph` parses a conversation in the interchange shape once: every
tool result is tied to the call it answers by the call's *reference*, which is
the position of the call and not its source id, since a source id may be used
again in a later turn.  Images are then put where they belong; they carry no
link.

Whatever a message holds besides links (texts, images, reasoning) is a part in its order.  Parsing raises
on a result whose call cannot be told, on a call that is left unanswered, on arguments that are no object
and on blocks of an unknown shape; every error names the message it was found in.
-/

namespace VariantOne
namespace ModelRuntime

/-- A `ProjectionError`, which is a `ValueError`. -/
def projectionError (message : String) : Raised := ⟨.valueError, message⟩

/-- What an image is read with: the media type its bytes show. -/
structure ProjectionHost extends Interpreter where
  /-- `detect_image_media_type` -/
  detectImageMediaType : String → String

variable (P : ProjectionHost)

/-! ## Images -/

structure ImageObservation where
  dataB64 : String := ""
  mediaType : String := "image/png"
  origin : String := "current_user"
  toolCallIds : List String := []
  url : String := ""
  detail : String := "high"
  declaredMediaType : String := ""
  detectedMediaType : String := ""
  deriving DecidableEq, Repr

/-- `data_url` -/
def ImageObservation.dataUrl (o : ImageObservation) : String :=
  if o.url ≠ "" then o.url else s!"data:{o.mediaType};base64,{o.dataB64}"

/-- The first text that is not empty. -/
def firstText (texts : List String) : String := (texts.find? (· ≠ "")).getD ""

/-- The media type and the data of a data URL. -/
def splitDataUrl (raw : String) : Option (String × String) :=
  let isToken (c : Char) : Bool :=
    c.isAlphanum || c == '.' || c == '+' || c == '-'
  match raw.toList with
  | 'd' :: 'a' :: 't' :: 'a' :: ':' :: rest =>
      let major := rest.takeWhile isToken
      match rest.dropWhile isToken with
      | '/' :: rest =>
          let minor := rest.takeWhile isToken
          match rest.dropWhile isToken with
          | ';' :: 'b' :: 'a' :: 's' :: 'e' :: '6' :: '4' :: ',' :: data =>
              if major = [] ∨ minor = [] then none
              else some (String.ofList (major ++ '/' :: minor), String.ofList data)
          | _ => none
      | _ => none
  | _ => none

/-- `coerce_image_observation` of an observation. -/
def coerceObservation (o : ImageObservation) : ImageObservation :=
  if o.url ≠ "" then o
  else
    let detected := firstText [o.detectedMediaType, P.detectImageMediaType o.dataB64]
    { o with
      mediaType := firstText [detected, o.mediaType, o.declaredMediaType, "image/png"]
      detectedMediaType := detected }

/-- The call ids a dictionary anchors an image to. -/
def anchorIds (entries : PyDict) : Except Raised (List String) := do
  let ids := orElse (Dict.get? entries "tool_call_ids") <|
    .list (((Dict.get? entries "tool_call_id").filter (·.truthy)).toList)
  return ((← ids.iter).filter (·.truthy)).map P.text

/-- `coerce_image_observation` of any other value. -/
def coerceImageObservation (value : PyValue) (origin mediaType : String) :
    Except Raised (Option ImageObservation) :=
  match value with
  | .none | .str "" => .ok none
  | .dict entries => do
      let ids ← anchorIds P entries
      return some <| coerceObservation P
        { dataB64 := P.text (orElse (Dict.get? entries "data_b64")
            (.str (P.field entries "data")))
          mediaType := firstText [P.field entries "media_type", mediaType, "image/png"]
          origin := firstText [P.field entries "origin", origin]
          toolCallIds := ids
          url := P.field entries "url"
          detail := firstText [P.field entries "detail", "high"]
          declaredMediaType := P.field entries "declared_media_type"
          detectedMediaType := P.field entries "detected_media_type" }
  | v =>
      let raw := strip (P.text (orElse (some v) (.str "")))
      let declared := P.lower (strip mediaType)
      let (declared, raw) := match splitDataUrl raw with
        | some (mime, data) => (P.lower (firstText [mime, declared]), data)
        | none => (declared, raw)
      if "http://".isPrefixOf raw ∨ "https://".isPrefixOf raw then
        .ok (some
          { url := raw
            mediaType := firstText [declared, "image/jpeg"]
            origin := origin
            declaredMediaType := declared })
      else
        let detected := P.detectImageMediaType raw
        .ok (some
          { dataB64 := raw
            mediaType := firstText [detected, declared, "image/png"]
            origin := origin
            declaredMediaType := declared
            detectedMediaType := detected })

/-! ## Nodes -/

structure ToolCallPart where
  ref : String
  sourceId : String
  name : String
  arguments : PyDict
  providerReplay : PyDict
  deriving Repr

structure ToolResultPart where
  callRef : String
  sourceId : String
  name : String
  output : String
  isError : Bool
  deriving Repr

/-- `ModelPart` -/
inductive ModelPart
  | text (text : String)
  | image (observation : ImageObservation) (anchorCallRefs : List String)
  | call (call : ToolCallPart)
  | result (result : ToolResultPart)
  deriving Repr

structure MessageNode where
  id : String
  role : String
  parts : List ModelPart
  sourceIndex : Int
  deriving Repr

structure MessageGraph where
  messages : List MessageNode
  deriving Repr

def ModelPart.call? : ModelPart → Option ToolCallPart
  | .call c => some c
  | _ => none

def ModelPart.result? : ModelPart → Option ToolResultPart
  | .result r => some r
  | _ => none

/-- The parts of all nodes, in order. -/
def partsOf (nodes : List MessageNode) : List ModelPart := nodes.flatMap (·.parts)

/-- `graph.calls` -/
def MessageGraph.calls (g : MessageGraph) : List ToolCallPart :=
  (partsOf g.messages).filterMap ModelPart.call?

/-! ## Parsing -/

/-- `_json_object` -/
def jsonObject (value : Option PyValue) (node : Nat) (tool : String) : Except Raised PyDict :=
  let nonObject := projectionError s!"message {node}: non-object arguments for tool {P.repr tool}"
  match value.getD .none with
  | .dict entries => .ok entries
  | .none => .ok []
  | .str s =>
      if s = "" then .ok []
      else
        match P.loads s with
        | none =>
            .error (projectionError
              s!"message {node}: malformed arguments for tool {P.repr tool}")
        | some (.dict entries) => .ok entries
        | some _ => .error nonObject
  | _ => .error nonObject

/-- One block of a content list. -/
def blockPart (block : PyValue) (node index : Nat) : Except Raised ModelPart :=
  match block with
  | .str s => .ok (.text s)
  | .dict entries => do
      let kind := P.field entries "type"
      let image (raw : PyValue) (mediaType : String) : Except Raised ModelPart := do
        match ← coerceImageObservation P raw "transcript" mediaType with
        | some o => return .image o []
        | none => throw (projectionError s!"message {node} part {index}: empty image")
      if kind ∈ ["text", "input_text", "output_text"] then
        return .text (P.field entries "text")
      else if kind ∈ ["image_url", "input_image"] then
        let raw := orElse (Dict.get? entries "image_url") ((Dict.get? entries "url").getD .none)
        let raw := match raw with
          | .dict url => (Dict.get? url "url").getD .none
          | v => v
        image raw (P.field entries "media_type")
      else if kind = "image" then
        let source := match Dict.get? entries "source" with
          | some (.dict source) => source
          | _ => []
        image (orElse (Dict.get? source "data") ((Dict.get? source "url").getD .none))
          (P.field source "media_type")
      else
        throw (projectionError
          s!"message {node} part {index}: unsupported block type {P.repr kind}")
  | _ => .error (projectionError s!"message {node} part {index}: unsupported content block")

/-- The blocks of a content list, numbered from `index`. -/
def blockParts : List PyValue → Nat → Nat → Except Raised (List ModelPart)
  | [], _, _ => .ok []
  | block :: blocks, node, index => do
      let part ← blockPart P block node index
      return part :: (← blockParts blocks node (index + 1))

/-- `_text_or_image_parts` -/
def textOrImageParts (content : Option PyValue) (node : Nat) (role : String) :
    Except Raised (List ModelPart) :=
  match content.getD .none with
  | .none => .ok []
  | .str s => .ok [.text s]
  | .list blocks => blockParts P blocks node 0
  | _ => .error (projectionError s!"message {node}: unsupported {role} content")

/-- The state of the loop over messages. -/
structure ParseState where
  nodes : List MessageNode
  callsByRef : List (String × ToolCallPart)
  pendingBySourceId : List (String × List String)
  pendingRefs : List String

def ParseState.init : ParseState := ⟨[], [], [], []⟩

/-- The references pending under a source id. -/
def ParseState.candidates (s : ParseState) (sourceId : String) : List String :=
  (Dict.get? s.pendingBySourceId sourceId).getD []

/-- The reference of a call: its position. -/
def callRef (message call : Nat) : String := s!"c{message}_{call}"

/-- One entry of `tool_calls`. -/
def parseCall (s : ParseState) (raw : PyValue) (node index : Nat) :
    Except Raised (ToolCallPart × ParseState) :=
  match raw with
  | .dict entries =>
      match Dict.get? entries "function" with
      | some (.dict fn) =>
          let name := strip (P.field fn "name")
          if name = "" then
            .error (projectionError s!"message {node}: unnamed function call {index}")
          else
            let sourceId := strip (P.text (orElse (Dict.get? entries "id")
              (.str s!"call_{node}_{index}")))
            if s.candidates sourceId ≠ [] then
              .error (projectionError
                s!"message {node}: duplicate unresolved call id {P.repr sourceId}")
            else
              let ref := callRef node index
              let replay := match Dict.get? entries "provider_replay" with
                | some (.dict replay) => replay
                | _ => []
              match jsonObject P (Dict.get? fn "arguments") node name with
              | .error e => .error e
              | .ok arguments =>
                  let call : ToolCallPart := ⟨ref, sourceId, name, arguments, replay⟩
                  .ok (call,
                    { s with
                      callsByRef := Dict.set s.callsByRef ref call
                      pendingRefs := s.pendingRefs ++ [ref]
                      pendingBySourceId := Dict.set s.pendingBySourceId sourceId
                        (s.candidates sourceId ++ [ref]) })
      | _ => .error (projectionError s!"message {node}: invalid function call {index}")
  | _ => .error (projectionError s!"message {node}: invalid tool call {index}")

/-- The entries of `tool_calls`, numbered from `index`. -/
def parseCalls (s : ParseState) : List PyValue → Nat → Nat →
    Except Raised (List ToolCallPart × ParseState)
  | [], _, _ => .ok ([], s)
  | raw :: raws, node, index =>
      match parseCall P s raw node index with
      | .error e => .error e
      | .ok (call, s) =>
          match parseCalls s raws node (index + 1) with
          | .error e => .error e
          | .ok (calls, s) => .ok (call :: calls, s)

/-- The reference a tool result answers. -/
def answeredRef (s : ParseState) (sourceId : String) (node : Nat) : Except Raised String :=
  let candidates := if sourceId = "" then [] else s.candidates sourceId
  if 1 < candidates.length then
    .error (projectionError s!"message {node}: ambiguous result id {P.repr sourceId}")
  else
    match candidates.getLast? with
    | some ref => .ok ref
    | none =>
        match s.pendingRefs with
        | [ref] =>
            if sourceId = "" then .ok ref
            else .error (projectionError
              s!"message {node}: orphan tool result id {P.repr sourceId}")
        | _ => .error (projectionError
            s!"message {node}: orphan tool result id {P.repr sourceId}")

/-- The text of a tool result. -/
def resultOutput (content : Option PyValue) : Except Raised String :=
  match content.getD .none with
  | .str s => .ok s
  | .none => .ok ""
  | v => P.dumps v

/-- A `role: tool` message. -/
def parseResult (s : ParseState) (message : PyDict) (node : Nat) : Except Raised ParseState := do
  let sourceId := strip (P.text (orElse (Dict.get? message "tool_call_id")
    (.str (P.field message "id"))))
  let ref ← answeredRef P s sourceId node
  match Dict.get? s.callsByRef ref with
  | none => throw ⟨.runtimeError, ref⟩
  | some call =>
      let output ← resultOutput P (Dict.get? message "content")
      return { s with
        pendingRefs := s.pendingRefs.erase ref
        pendingBySourceId := Dict.set s.pendingBySourceId call.sourceId
          ((s.candidates call.sourceId).erase ref)
        nodes := s.nodes ++ [
          { id := s!"m{node}"
            role := "tool"
            parts := [.result
              { callRef := ref
                sourceId := call.sourceId
                name := call.name
                output := output
                isError := (Dict.get? message "is_error").any (·.truthy) }]
            sourceIndex := node }] }

/-- The entries of `tool_calls`, which only an assistant message has. -/
def rawCalls (message : PyDict) (role : String) : Except Raised (List PyValue) :=
  if role = "assistant" then (orElse (Dict.get? message "tool_calls") (.list [])).iter
  else .ok []

/-- Any other message. -/
def parseContent (s : ParseState) (message : PyDict) (role : String) (node : Nat) :
    Except Raised ParseState := do
  let parts ← textOrImageParts P (Dict.get? message "content") node role
  let raws ← rawCalls message role
  let (calls, s) ← parseCalls P s raws node 0
  return { s with nodes := s.nodes ++ [⟨s!"m{node}", role, parts ++ calls.map .call, node⟩] }

/-- A developer message is a system message. -/
def canonicalRole (rawRole : String) : String :=
  if rawRole = "developer" then "system" else rawRole

/-- One message of the interchange shape. -/
def parseMessage (s : ParseState) (raw : PyValue) (node : Nat) : Except Raised ParseState :=
  match raw with
  | .dict message =>
      let rawRole := P.lower (strip (P.field message "role"))
      let role := canonicalRole rawRole
      if role ∉ ["system", "user", "assistant", "tool"] then
        .error (projectionError s!"message {node}: unsupported role {P.repr rawRole}")
      else if role = "tool" then parseResult P s message node
      else parseContent P s message role node
  | _ => .error (projectionError s!"message {node}: expected object")

/-- The loop over messages, numbered from `node`. -/
def parseMessages (s : ParseState) : List PyValue → Nat → Except Raised ParseState
  | [], _ => .ok s
  | raw :: raws, node =>
      match parseMessage P s raw node with
      | .error e => .error e
      | .ok s => parseMessages s raws (node + 1)

/-! ## Placing images -/

/-- An item of the `image` argument. -/
inductive ImageInput
  | observation (o : ImageObservation)
  | value (v : PyValue)

def ImageInput.coerce : ImageInput → Except Raised (Option ImageObservation)
  | .observation o => .ok (some (coerceObservation P o))
  | .value v => coerceImageObservation P v "current_user" ""

/-- The results of the requested ids, with the positions of their nodes. -/
def anchorResults (nodes : List MessageNode) (requested : List String) :
    List (Nat × ToolResultPart) :=
  nodes.zipIdx.flatMap fun p =>
    (p.1.parts.filterMap ModelPart.result?).filterMap fun r =>
      if r.sourceId ∈ requested then some (p.2, r) else none

/-- Put one observation into the graph. -/
def placeImage (nodes : List MessageNode) (o : ImageObservation) :
    Except Raised (List MessageNode) :=
  if o.origin = "tool_result" then
    if o.toolCallIds = [] then .error (projectionError "tool image has no call id anchor")
    else
      let results := anchorResults nodes o.toolCallIds
      let found := results.map (·.2.sourceId)
      let missing := (o.toolCallIds.filter (· ∉ found)).dedup
      if missing ≠ [] then
        .error (projectionError ("tool image anchor not found: " ++
          ", ".intercalate ((missing.mergeSort (· ≤ ·)).take 4)))
      else
        let insertAt := (results.map (·.1)).foldl max 0 + 1
        .ok (nodes.insertIdx insertAt
          { id := s!"image_tool_{insertAt}"
            role := "user"
            parts := [.image o (results.map (·.2.callRef))]
            sourceIndex := -1 })
  else
    -- the last user message, if there is one
    match nodes.reverse.findIdx? (·.role = "user") with
    | none => .ok (nodes ++ [⟨"image_user", "user", [.image o []], -1⟩])
    | some i => .ok (nodes.modify (nodes.length - 1 - i) fun n =>
        { n with parts := n.parts ++ [.image o []] })

def placeImages (nodes : List MessageNode) : List ImageObservation →
    Except Raised (List MessageNode)
  | [] => .ok nodes
  | o :: os =>
      match placeImage nodes o with
      | .error e => .error e
      | .ok nodes => placeImages nodes os

/-- The observations of the `image` argument. -/
def coerceImages : List ImageInput → Except Raised (List ImageObservation)
  | [] => .ok []
  | i :: is => do
      let o ← i.coerce P
      return o.toList ++ (← coerceImages is)

/-- `build_message_graph` -/
def buildMessageGraph (messages : List PyValue) (images : List ImageInput) :
    Except Raised MessageGraph := do
  let s ← parseMessages P .init messages 0
  if s.pendingRefs ≠ [] then
    throw (projectionError ("unanswered tool calls: " ++ ", ".intercalate (s.pendingRefs.take 4)))
  else
    let observations ← coerceImages P images
    let nodes ← placeImages s.nodes observations
    return ⟨nodes⟩

end ModelRuntime
end VariantOne
