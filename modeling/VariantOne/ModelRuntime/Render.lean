import VariantOne.ModelRuntime.MessageGraph

/-!
# Rendering the message graph

The four wire protocols.  Each renderer first gives every call of the graph a
wire id (`wireCallIds`) and then walks the nodes in order, writing calls and
results under these ids.

What a provider sees of a rendering is its list of links, calls and results in order, each with a wire id
(`Rendered.links`).  The results about wire ids speak of these lists only; messages that a protocol merges
or leaves out, such as a turn without text, do not touch them.
-/

namespace VariantOne
namespace ModelRuntime

variable (P : ProjectionHost)

/-! ## Wire ids -/

/-- A character `_SAFE_ID_RE` leaves alone. -/
def isSafeIdChar (c : Char) : Bool :=
  c.isAlphanum || c == '_' || c == '.' || c == ':' || c == '-'

/-- `_SAFE_ID_RE.sub("_", …)`: every run of other characters becomes one `_`. -/
def replaceUnsafe (inRun : Bool) : List Char → List Char
  | [] => []
  | c :: cs =>
      if isSafeIdChar c then c :: replaceUnsafe false cs
      else if inRun then replaceUnsafe true cs
      else '_' :: replaceUnsafe true cs

/-- `_clean_id` -/
def cleanId (value fallback : String) : String :=
  let cleaned := String.ofList (replaceUnsafe false (strip value).toList)
  String.ofList ((if cleaned ≠ "" then cleaned else fallback).toList.take 160)

inductive Provider
  | openai | anthropic | gemini | responses
  deriving DecidableEq, Repr

/-- `call.provider_replay.get("gemini")`, if it is a dictionary. -/
def ToolCallPart.gemini (call : ToolCallPart) : PyDict :=
  ((Dict.get? call.providerReplay "gemini").bind PyValue.dict?).getD []

/-- The id a call brings to a provider. -/
def ToolCallPart.candidateId (call : ToolCallPart) (provider : Provider) : String :=
  match provider with
  | .gemini => firstText [P.field call.gemini "id", call.sourceId]
  | _ => call.sourceId

/-- A call whose Gemini id is signed. -/
def ToolCallPart.signed (call : ToolCallPart) (provider : Provider) : Bool :=
  provider == .gemini && (Dict.get? call.gemini "thought_signature").any (·.truthy)

/-- The cleaned id of the call with this ordinal. -/
def baseId (provider : Provider) (call : ToolCallPart) (ordinal : Nat) : String :=
  cleanId (call.candidateId P provider) s!"call_{ordinal}"

/-- The id a call is given when its cleaned id is taken. -/
def suffixedId (base : String) (ordinal : Nat) : String :=
  cleanId s!"{base}__{ordinal}" s!"call_{ordinal}"

/-- `_wire_call_ids`, from the call with this ordinal on. -/
def wireCallIdsFrom (provider : Provider) (used : List String) (out : List (String × String))
    (ordinal : Nat) : List ToolCallPart → Except Raised (List (String × String))
  | [] => .ok out
  | call :: calls =>
      let candidate := baseId P provider call ordinal
      if candidate ∈ used then
        if call.signed provider then
          .error (projectionError s!"duplicate signed Gemini call id {P.repr candidate}")
        else
          let candidate := suffixedId candidate ordinal
          wireCallIdsFrom provider (candidate :: used) (Dict.set out call.ref candidate)
            (ordinal + 1) calls
      else
        wireCallIdsFrom provider (candidate :: used) (Dict.set out call.ref candidate)
          (ordinal + 1) calls

/-- `_wire_call_ids` -/
def wireCallIds (graph : MessageGraph) (provider : Provider) :
    Except Raised (List (String × String)) :=
  wireCallIdsFrom P provider [] [] 0 graph.calls

/-- `call_ids[ref]` -/
def wireId (ids : List (String × String)) (ref : String) : Except Raised String :=
  match Dict.get? ids ref with
  | some id => .ok id
  | none => .error ⟨.runtimeError, ref⟩

/-! ## Chat Completions -/

inductive OpenAIContent
  | text (text : String)
  | blocks (texts : List String) (images : List (String × Option String))

structure OpenAICall where
  id : String
  name : String
  arguments : String

inductive OpenAIMessage
  | tool (toolCallId content : String)
  | chat (role : String) (content : OpenAIContent) (toolCalls : List OpenAICall)

def ModelPart.text? : ModelPart → Option String
  | .text t => some t
  | _ => none

def ModelPart.image? : ModelPart → Option ImageObservation
  | .image o _ => some o
  | _ => none

/-- `_openai_content` -/
def openaiContent (parts : List ModelPart) (role : String) : Except Raised OpenAIContent :=
  let texts := parts.filterMap ModelPart.text?
  let images := parts.filterMap ModelPart.image?
  if images.isEmpty then .ok (.text (String.join texts))
  else if role ≠ "user" then
    .error (projectionError s!"OpenAI chat cannot project {role} image content")
  else
    .ok (.blocks texts (images.map fun o =>
      (o.dataUrl, if o.detail ≠ "" then some o.detail else none)))

/-- The calls of one assistant message. -/
def openaiCalls (ids : List (String × String)) : List ToolCallPart →
    Except Raised (List OpenAICall)
  | [] => .ok []
  | call :: calls => do
      let id ← wireId ids call.ref
      let arguments ← P.dumps (.dict call.arguments)
      return ⟨id, call.name, arguments⟩ :: (← openaiCalls ids calls)

def openaiMessage (ids : List (String × String)) (node : MessageNode) :
    Except Raised OpenAIMessage :=
  let calls := node.parts.filterMap ModelPart.call?
  match node.parts.filterMap ModelPart.result? with
  | [result] => do return .tool (← wireId ids result.callRef) result.output
  | _ :: _ :: _ => .error (projectionError s!"message {node.sourceIndex}: multiple tool results")
  | [] =>
      if node.role ∉ ["system", "user", "assistant"] then
        .error (projectionError
          s!"message {node.sourceIndex}: invalid OpenAI role {P.repr node.role}")
      else do
        let content ← openaiContent node.parts node.role
        if calls ≠ [] ∧ node.role ≠ "assistant" then
          throw (projectionError s!"message {node.sourceIndex}: tool call outside assistant")
        else
          return .chat node.role content (← openaiCalls P ids calls)

def openaiMessages (ids : List (String × String)) : List MessageNode →
    Except Raised (List OpenAIMessage)
  | [] => .ok []
  | node :: nodes => do
      let message ← openaiMessage P ids node
      return message :: (← openaiMessages ids nodes)

/-- `render_openai_chat` -/
def renderOpenaiChat (graph : MessageGraph) : Except Raised (List OpenAIMessage) := do
  openaiMessages P (← wireCallIds P graph .openai) graph.messages

/-! ## Messages API -/

inductive AnthropicBlock
  | text (text : String)
  | imageUrl (url : String)
  | imageData (mediaType data : String)
  | toolUse (id name : String) (input : PyDict)
  | toolResult (toolUseId content : String) (isError : Bool)

/-- A message of a provider: its role and its blocks. -/
structure ProviderMessage (β : Type) where
  role : String
  blocks : List β

/-- The text parts of a system node. -/
def systemTexts (provider : String) (index : Int) : List ModelPart →
    Except Raised (List String)
  | [] => .ok []
  | .text t :: parts => do return t :: (← systemTexts provider index parts)
  | _ :: _ => .error (projectionError s!"message {index}: non-text {provider} system part")

/-- `_anthropic_image` -/
def anthropicImage (o : ImageObservation) : AnthropicBlock :=
  if o.url ≠ "" then .imageUrl o.url else .imageData o.mediaType o.dataB64

/-- One part of a node of the given provider role. -/
def anthropicBlock (ids : List (String × String)) (role : String) (index : Int) :
    ModelPart → Except Raised (List AnthropicBlock)
  | .text t => .ok (if t ≠ "" then [.text t] else [])
  | .image o _ =>
      if role ≠ "user" then
        .error (projectionError s!"message {index}: Anthropic assistant image")
      else .ok [anthropicImage o]
  | .call c =>
      if role ≠ "assistant" then
        .error (projectionError s!"message {index}: Anthropic tool call role")
      else do return [.toolUse (← wireId ids c.ref) c.name c.arguments]
  | .result r => do return [.toolResult (← wireId ids r.callRef) r.output r.isError]

/-- The blocks of a list of parts, each rendered by `f`. -/
def blocksOf {β : Type} (f : ModelPart → Except Raised (List β)) :
    List ModelPart → Except Raised (List β)
  | [] => .ok []
  | part :: parts => do
      let blocks ← f part
      return blocks ++ (← blocksOf f parts)

/-- `_merge_provider_message` -/
def mergeProviderMessage {β : Type} (out : List (ProviderMessage β)) (role : String)
    (blocks : List β) : List (ProviderMessage β) :=
  if blocks.isEmpty then out
  else
    match out.getLast? with
    | some last =>
        if last.role = role then out.dropLast ++ [⟨role, last.blocks ++ blocks⟩]
        else out ++ [⟨role, blocks⟩]
    | none => out ++ [⟨role, blocks⟩]

/-- A tool result is sent by the user. -/
def anthropicRole (role : String) : String := if role = "tool" then "user" else role

/-- The loop of `render_anthropic_messages`. -/
def anthropicMessages (ids : List (String × String)) (system : List String)
    (out : List (ProviderMessage AnthropicBlock)) : List MessageNode →
    Except Raised (List String × List (ProviderMessage AnthropicBlock))
  | [] => .ok (system, out)
  | node :: nodes =>
      if node.role = "system" then do
        let texts ← systemTexts "Anthropic" node.sourceIndex node.parts
        anthropicMessages ids (system ++ texts) out nodes
      else
        let role := anthropicRole node.role
        if role ∉ ["user", "assistant"] then
          .error (projectionError
            s!"message {node.sourceIndex}: invalid Anthropic role {P.repr node.role}")
        else do
          let blocks ← blocksOf (anthropicBlock ids role node.sourceIndex) node.parts
          anthropicMessages ids system (mergeProviderMessage out role blocks) nodes

/-- `render_anthropic_messages` -/
def renderAnthropicMessages (graph : MessageGraph) :
    Except Raised (String × List (ProviderMessage AnthropicBlock)) := do
  let ids ← wireCallIds P graph .anthropic
  let (system, out) ← anthropicMessages P ids [] [] graph.messages
  return ("\n\n".intercalate system, out)

/-! ## GenerateContent -/

inductive GeminiPart
  | text (text : String)
  | inlineData (mimeType data : String)
  | functionCall (id name : String) (args : PyDict) (thoughtSignature : Option PyValue)
  | functionResponse (id name result : String)

/-- One part of a node of the given role. -/
def geminiPart (ids : List (String × String)) (calls : List ToolCallPart) (role : String)
    (index : Int) : ModelPart → Except Raised (List GeminiPart)
  | .text t => .ok (if t ≠ "" then [.text t] else [])
  | .image o _ =>
      if role ≠ "user" then .error (projectionError s!"message {index}: Gemini model image")
      else if o.url ≠ "" then
        .error (projectionError s!"message {index}: Gemini URL image unsupported")
      else .ok [.inlineData o.mediaType o.dataB64]
  | .call c =>
      if role ≠ "model" then
        .error (projectionError s!"message {index}: Gemini function call role")
      else do
        return [.functionCall (← wireId ids c.ref) c.name c.arguments
          ((Dict.get? c.gemini "thought_signature").filter (·.truthy))]
  | .result r =>
      match calls.find? (·.ref = r.callRef) with
      | none => .error ⟨.runtimeError, r.callRef⟩
      | some call => do return [.functionResponse (← wireId ids r.callRef) call.name r.output]

/-- Consecutive user contents are one turn; model contents keep their boundary. -/
def mergeGeminiContent (out : List (ProviderMessage GeminiPart)) (role : String)
    (parts : List GeminiPart) : List (ProviderMessage GeminiPart) :=
  if role = "user" then mergeProviderMessage out role parts
  else if parts.isEmpty then out
  else out ++ [⟨role, parts⟩]

/-- The loop of `render_gemini_generate_content`. -/
def geminiContents (ids : List (String × String)) (calls : List ToolCallPart)
    (system : List String) (out : List (ProviderMessage GeminiPart)) : List MessageNode →
    Except Raised (List String × List (ProviderMessage GeminiPart))
  | [] => .ok (system, out)
  | node :: nodes =>
      if node.role = "system" then do
        let texts ← systemTexts "Gemini" node.sourceIndex node.parts
        geminiContents ids calls (system ++ texts) out nodes
      else do
        let role := if node.role = "assistant" then "model" else "user"
        let parts ← blocksOf (geminiPart ids calls role node.sourceIndex) node.parts
        geminiContents ids calls system (mergeGeminiContent out role parts) nodes

/-- `render_gemini_generate_content` -/
def renderGeminiGenerateContent (graph : MessageGraph) :
    Except Raised (String × List (ProviderMessage GeminiPart)) := do
  let ids ← wireCallIds P graph .gemini
  let (system, out) ← geminiContents ids graph.calls [] [] graph.messages
  return ("\n\n".intercalate system, out)

/-! ## Responses -/

inductive ResponsesItem
  | text (role partType text : String)
  | image (imageUrl detail : String)
  | reasoning (encryptedContent id : String) (fields : PyDict)
  | functionCall (id callId name arguments : String)
  | functionCallOutput (callId output : String)

/-- One entry of `reasoning_items`, unless it was replayed already. -/
def reasoningItem (replayed : List String) (raw : PyValue) : Option (String × ResponsesItem) :=
  match raw with
  | .dict entries =>
      match Dict.get? entries "type", Dict.get? entries "encrypted_content" with
      | some (.str "reasoning"), some (.str encrypted) =>
          if encrypted = "" then none
          else
            let replayId := P.field entries "id"
            let identity := firstText [replayId, encrypted]
            if identity ∈ replayed then none
            else
              some (identity, .reasoning encrypted replayId
                (entries.filter fun e => e.1 ∈ ["content", "summary"] ∧ e.2.isList))
      | _, _ => none
  | _ => none

/-- The reasoning items of a call, with the identities replayed so far. -/
def reasoningItems (replayed : List String) : List PyValue → List String × List ResponsesItem
  | [] => (replayed, [])
  | raw :: raws =>
      match reasoningItem P replayed raw with
      | none => reasoningItems replayed raws
      | some (identity, item) =>
          let rest := reasoningItems (identity :: replayed) raws
          (rest.1, item :: rest.2)

/-- `call.provider_replay.get("responses")`, if it is a dictionary. -/
def ToolCallPart.responses (call : ToolCallPart) : PyDict :=
  ((Dict.get? call.providerReplay "responses").bind PyValue.dict?).getD []

/-- One part of a node of the given role. -/
def responsesPart (ids : List (String × String)) (role : String) (index : Int)
    (replayed : List String) : ModelPart → Except Raised (List String × List ResponsesItem)
  | .text t =>
      let partType := if role = "assistant" then "output_text" else "input_text"
      .ok (replayed, if t ≠ "" then [.text role partType t] else [])
  | .image o _ =>
      if role ≠ "user" then .error (projectionError s!"message {index}: Responses image role")
      else .ok (replayed, [.image o.dataUrl o.detail])
  | .call c => do
      let callId ← wireId ids c.ref
      let raws := match Dict.get? c.responses "reasoning_items" with
        | some (.list raws) => raws
        | _ => []
      let reasoning := reasoningItems P replayed raws
      let itemId := firstText [P.field c.responses "item_id", "fc_" ++ cleanId c.ref "call"]
      let arguments ← P.dumps (.dict c.arguments)
      return (reasoning.1, reasoning.2 ++ [.functionCall itemId callId c.name arguments])
  | .result r => do
      return (replayed, [.functionCallOutput (← wireId ids r.callRef) r.output])

/-- The parts of one node. -/
def responsesParts (ids : List (String × String)) (role : String) (index : Int)
    (replayed : List String) :
    List ModelPart → Except Raised (List String × List ResponsesItem)
  | [] => .ok (replayed, [])
  | part :: parts => do
      let (replayed, items) ← responsesPart P ids role index replayed part
      let (replayed, rest) ← responsesParts ids role index replayed parts
      return (replayed, items ++ rest)

/-- The loop of `render_openai_responses`. -/
def responsesItems (ids : List (String × String)) (replayed : List String) :
    List MessageNode → Except Raised (List String × List ResponsesItem)
  | [] => .ok ([], [])
  | node :: nodes =>
      if node.role = "system" then do
        let texts ← systemTexts "Responses" node.sourceIndex node.parts
        let (system, items) ← responsesItems ids replayed nodes
        return (texts ++ system, items)
      else do
        let (replayed, items) ← responsesParts P ids node.role node.sourceIndex replayed node.parts
        let (system, rest) ← responsesItems ids replayed nodes
        return (system, items ++ rest)

def ResponsesItem.isImage : ResponsesItem → Bool
  | .image .. => true
  | _ => false

/-- `render_openai_responses` -/
def renderOpenaiResponses (graph : MessageGraph) :
    Except Raised (String × List ResponsesItem × Bool) := do
  let ids ← wireCallIds P graph .responses
  let (system, items) ← responsesItems P ids [] graph.messages
  if items.isEmpty then
    throw (projectionError "Responses request has no model input items")
  else
    return ("\n\n".intercalate system, items, items.any (·.isImage))

/-! ## What a provider sees -/

/-- A request body of one of the four protocols. -/
inductive Rendered
  | openai (messages : List OpenAIMessage)
  | anthropic (system : String) (messages : List (ProviderMessage AnthropicBlock))
  | gemini (system : String) (contents : List (ProviderMessage GeminiPart))
  | responses (instructions : String) (items : List ResponsesItem) (hasImages : Bool)

def render (graph : MessageGraph) : Provider → Except Raised Rendered
  | .openai => do return .openai (← renderOpenaiChat P graph)
  | .anthropic => do
      let (system, messages) ← renderAnthropicMessages P graph
      return .anthropic system messages
  | .gemini => do
      let (system, contents) ← renderGeminiGenerateContent P graph
      return .gemini system contents
  | .responses => do
      let (instructions, items, hasImages) ← renderOpenaiResponses P graph
      return .responses instructions items hasImages

/-- A call or a result, by the reference or the id `ι` of the call. -/
inductive Link (ι : Type)
  | call (id : ι)
  | result (id : ι)
  deriving DecidableEq, Repr

def Link.map {ι κ : Type} (f : ι → κ) : Link ι → Link κ
  | .call id => .call (f id)
  | .result id => .result (f id)

def OpenAIMessage.links : OpenAIMessage → List (Link String)
  | .tool id _ => [.result id]
  | .chat _ _ calls => calls.map fun c => .call c.id

def AnthropicBlock.link? : AnthropicBlock → Option (Link String)
  | .toolUse id _ _ => some (.call id)
  | .toolResult id _ _ => some (.result id)
  | _ => none

def GeminiPart.link? : GeminiPart → Option (Link String)
  | .functionCall id _ _ _ => some (.call id)
  | .functionResponse id _ _ => some (.result id)
  | _ => none

def ResponsesItem.link? : ResponsesItem → Option (Link String)
  | .functionCall _ id _ _ => some (.call id)
  | .functionCallOutput id _ => some (.result id)
  | _ => none

/-- The calls and results of a request body, in order, with their wire ids. -/
def Rendered.links : Rendered → List (Link String)
  | .openai messages => messages.flatMap OpenAIMessage.links
  | .anthropic _ messages => (messages.flatMap (·.blocks)).filterMap AnthropicBlock.link?
  | .gemini _ contents => (contents.flatMap (·.blocks)).filterMap GeminiPart.link?
  | .responses _ items _ => items.filterMap ResponsesItem.link?

end ModelRuntime
end VariantOne
