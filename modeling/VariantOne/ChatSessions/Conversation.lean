import Mathlib.Data.Prod.Lex
import VariantOne.Core.Dynamic
import VariantOne.Core.Text
import VariantOne.Lib.Ancestry
import VariantOne.Lib.Binary64
import VariantOne.Lib.Machine

/-!
# The conversation of a chat

The messages of a chat are nodes of a graph.  `appendMessages` cuts a list of messages into
turns and appends a node for each message, with an edge from the head before it; a time
stamp is the clock at the start of the append plus an offset for each turn, rounded to a
double after each operation (`turnTime`, `replyTime`).  The readers take the ancestry of the
head and sort it by time stamp, except `contextSources`, which sorts it topologically.

The tables are those of one conversation, to which every query is restricted.  A REAL column
holds the double that was written to it, and a JSON column the text.
-/

namespace VariantOne
namespace ChatSessions

/-! ## 1.  Records -/

/-- The roles of a message. -/
inductive MessageRole where
  | user | assistant
  deriving DecidableEq, Repr

def MessageRole.text : MessageRole → String
  | user => "user"
  | assistant => "assistant"

/-- A cleaned message. -/
structure ChatMessage where
  role : MessageRole
  content : String
  metadata : List (String × Json)

/-- `conversation_node` -/
structure ConversationNode extends ChatMessage where
  nodeId : String
  turnId : String
  createdAt : ℚ

/-- `conversation_turn` -/
structure ConversationTurn where
  turnId : String
  userNodeId : String
  assistantNodeId : String
  runId : String
  createdAt : ℚ

/-- A conversation and its branch. -/
structure Conversation where
  conversationId : String
  branchId : String
  title : String
  nodes : Table ConversationNode String fun n => n.nodeId
  edges : List (Dag.Edge String)
  turns : Table ConversationTurn String fun t => t.turnId
  headNodeId : String
  version : Nat
  updatedAt : ℚ

/-- `DEFAULT_TITLE` -/
def defaultTitle : String := "New chat"

/-- `create_session`, with an empty branch. -/
def Conversation.create (conversationId branchId title : String) (now : ℚ) : Conversation :=
  ⟨conversationId, branchId, title, Table.empty, [], Table.empty, "", 1, now⟩

/-! ## 2.  Appending -/

/-- `" ".join(text.split())` -/
def joinWords (text : String) : String :=
  " ".intercalate (((text.toList.splitOnP isSpace).filter (· ≠ [])).map String.ofList)

/-- `_title_from` -/
def titleFrom (text : String) : String :=
  let value := joinWords text
  let clipped :=
    if 80 < value.length then
      String.ofList ((value.toList.take 79).rdropWhile isSpace) ++ "…"
    else value
  if clipped = "" then defaultTitle else clipped

/-- `_MAX_JSON_BYTES` -/
def maxJsonBytes : Nat := 8 * 1024 * 1024

/-- The content and the metadata of a message can be stored inline. -/
def ChatMessage.fits (m : ChatMessage) : Bool :=
  decide (Json.utf8Length (Json.dumps (.str m.content)) ≤ maxJsonBytes) &&
    decide (Json.utf8Length (Json.dumps (.obj m.metadata)) ≤ maxJsonBytes)

/-- The messages of a turn: a user message, its reply, or both. -/
structure TurnMessages where
  user : Option ChatMessage
  assistant : Option ChatMessage

def TurnMessages.messages (t : TurnMessages) : List ChatMessage := t.user.toList ++ t.assistant.toList

/-- The turn of one message. -/
def singleTurn (m : ChatMessage) : TurnMessages :=
  match m.role with
  | .user => ⟨some m, none⟩
  | .assistant => ⟨none, some m⟩

/-- A user message is paired with the reply that follows it. -/
def turnsOf : List ChatMessage → List TurnMessages
  | [] => []
  | [m] => [singleTurn m]
  | m :: following :: rest =>
      if m.role = .user ∧ following.role = .assistant then
        ⟨some m, some following⟩ :: turnsOf rest
      else singleTurn m :: turnsOf (following :: rest)

/-- The fresh identifiers of a turn. -/
structure TurnIds where
  turn : BitVec 128
  user : BitVec 128
  assistant : BitVec 128

/-- The head of the branch, if there is one. -/
def Conversation.head? (s : Conversation) : Option String :=
  if s.headNodeId = "" then none else some s.headNodeId

/-- `_insert_node_tx`, the edge from the head, and the new head. -/
def insertNode (m : ChatMessage) (nodeId turnId : String) (createdAt : ℚ) (s : Conversation) :
    Except Raised Conversation :=
  if ¬ m.fits then
    .error (valueError "conversation inline JSON is too large; use a content reference")
  else
    match s.nodes.insert? { m with nodeId := nodeId, turnId := turnId, createdAt := createdAt } with
    | none => .error ⟨.integrityError, "UNIQUE constraint failed: conversation_node.node_id"⟩
    | some nodes =>
        .ok { s with nodes := nodes, edges := s.edges ++ [(s.head?, nodeId)], headNodeId := nodeId }

/-- A message of a turn, if the turn has it. -/
def insertMessage (m : Option ChatMessage) (nodeId turnId : String) (createdAt : ℚ)
    (s : Conversation) : Except Raised Conversation :=
  match m with
  | none => .ok s
  | some m => insertNode m nodeId turnId createdAt s

/-- The double `0.00001` -/
def turnStep : ℚ := 5902958103587057 / 2 ^ 69

/-- The double `0.000001` -/
def replyStep : ℚ := 4722366482869645 / 2 ^ 72

/-- `now + turn_number * 0.00001`: the time stamp of the turn at a position. -/
def turnTime (now : ℚ) (turnNumber : Nat) : ℚ :=
  Binary64.add now (Binary64.mul turnNumber turnStep)

/-- `turn_time + 0.000001`: the time stamp of the reply of the turn. -/
def replyTime (now : ℚ) (turnNumber : Nat) : ℚ := Binary64.add (turnTime now turnNumber) replyStep

variable (P : Interpreter)

/-- The row of a turn. -/
def turnRow (t : TurnMessages) (ids : TurnIds) (createdAt : ℚ) : ConversationTurn where
  turnId := newId "turn" ids.turn
  userNodeId := if t.user.isSome then newId "node" ids.user else ""
  assistantNodeId := if t.assistant.isSome then newId "node" ids.assistant else ""
  runId := t.assistant.elim "" fun m => P.field (entriesToPy m.metadata) "run_id"
  createdAt := createdAt

/-- One turn of an append. -/
def appendTurn (now : ℚ) (turnNumber : Nat) (t : TurnMessages) (ids : TurnIds)
    (s : Conversation) : Except Raised Conversation := do
  let s ← insertMessage t.user (newId "node" ids.user) (newId "turn" ids.turn)
    (turnTime now turnNumber) s
  let s ← insertMessage t.assistant (newId "node" ids.assistant) (newId "turn" ids.turn)
    (replyTime now turnNumber) s
  match s.turns.insert? (turnRow P t ids (turnTime now turnNumber)) with
  | none => .error ⟨.integrityError, "UNIQUE constraint failed: conversation_turn.turn_id"⟩
  | some turns => .ok { s with turns := turns }

/-- The turns of an append, from a position on. -/
def appendTurns (now : ℚ) (ids : Nat → TurnIds) :
    Nat → List TurnMessages → Conversation → Except Raised Conversation
  | _, [], s => .ok s
  | turnNumber, t :: ts, s =>
      appendTurn P now turnNumber t (ids turnNumber) s >>= appendTurns now ids (turnNumber + 1) ts

/-- The transcript a message belongs to, as the store finds it. -/
def storedTranscript (m : ChatMessage) : Option String :=
  match Dict.get? m.metadata "transcript_id" with
  | some (.str transcript) => some transcript
  | _ => none

/-- The transcripts of the user messages of an append. -/
def transcriptIds (clean : List ChatMessage) : List String :=
  ((clean.filter fun m => m.role = .user).map fun m =>
    P.field (entriesToPy m.metadata) "transcript_id").filter (· ≠ "")

/-- A transcript of the append has been appended before. -/
def Conversation.acknowledges (s : Conversation) (clean : List ChatMessage) : Bool :=
  (transcriptIds P clean).any fun transcript =>
    s.turns.rows.any fun t => s.nodes.rows.any fun n =>
      decide (n.nodeId = t.userNodeId) && decide (storedTranscript n.toChatMessage = some transcript)

/-- The first user message of an append that is not blank. -/
def firstUser (clean : List ChatMessage) : Option String :=
  (clean.find? fun m => decide (m.role = .user) && decide (strip m.content ≠ "")).map (·.content)

/-- What an append returns. -/
inductive AppendReply where
  /-- There was nothing to append. -/
  | unchanged
  /-- A transcript was appended before. -/
  | acknowledged
  | appended (head : String)
  | raised (e : Raised)
  deriving DecidableEq, Repr

/-- `append_messages`, of cleaned messages. -/
def appendMessages (now : ℚ) (clean : List ChatMessage) (ids : Nat → TurnIds) (s : Conversation) :
    AppendReply × Conversation :=
  if clean.isEmpty then (.unchanged, s)
  else if s.acknowledges P clean then (.acknowledged, s)
  else
    match appendTurns P now ids 1 (turnsOf clean) s with
    | .error e => (.raised e, s)
    | .ok s' =>
        (.appended s'.headNodeId, { s' with
          version := s.version + 1
          updatedAt := turnTime now (max 1 (turnsOf clean).length)
          title := match firstUser clean with
            | some text => if s.title = defaultTitle then titleFrom text else s.title
            | none => s.title })

/-- An append, with the clock and the identifiers it draws. -/
structure AppendCall where
  now : ℚ
  clean : List ChatMessage
  ids : Nat → TurnIds

/-- Appends to the conversation of a chat. -/
def conversation (start : Conversation) : Machine Conversation AppendCall AppendReply :=
  ⟨start, fun call s => appendMessages P call.now call.clean call.ids s⟩

/-! ## 3.  Reading -/

/-- `ORDER BY created_at, node_id` -/
def ConversationNode.byTime (m n : ConversationNode) : Prop :=
  m.createdAt < n.createdAt ∨ m.createdAt = n.createdAt ∧ m.nodeId ≤ n.nodeId

instance (m n : ConversationNode) : Decidable (m.byTime n) :=
  inferInstanceAs (Decidable (_ ∨ _))

/-- The nodes in the ancestry of a head. -/
def ancestryNodes (s : Conversation) (head : String) : List ConversationNode :=
  s.nodes.rows.filter fun n => n.nodeId ∈ Dag.ancestry s.edges head

/-- `history_rows` -/
def historyRows (s : Conversation) (head : String) : List ConversationNode :=
  if head = "" then [] else (ancestryNodes s head).insertionSort ConversationNode.byTime

variable (H : Host)

/-- The text of a message's content in the store. -/
def contentJson (n : ConversationNode) : String := String.ofList (Json.dumps (.str n.content))

/-- `digest_rows` -/
def digestRows (rows : List ConversationNode) : String :=
  H.sha256 (Json.render (.arr (rows.map fun n =>
    .arr [.str n.nodeId, .str n.role.text, .str (contentJson n)])))

/-- What a projection has covered. -/
structure Coverage where
  conversationId : String
  branchId : String
  headNodeId : String
  prefixSha256 : String
  nodeCount : Nat
  deriving DecidableEq, Repr

/-- `coverage` -/
def coverage (s : Conversation) (rows : List ConversationNode) : Coverage :=
  ⟨s.conversationId, s.branchId, s.headNodeId, digestRows H rows, rows.length⟩

/-- The origin of a message from a peer. -/
structure PeerOrigin where
  peerId : String
  messageId : String
  deriving DecidableEq, Repr

/-- `str(entries.get(key) or "").strip()[:512]` -/
def clippedField (entries : PyDict) (key : String) : String :=
  String.ofList ((strip (P.field entries key)).toList.take 512)

/-- `_peer_origin` -/
def peerOrigin : Option Json → Option PeerOrigin
  | some (.obj entries) =>
      let value := entriesToPy entries
      if P.field value "kind" ≠ "peer" then none
      else if clippedField P value "peer_id" = "" ∨ clippedField P value "message_id" = "" then none
      else some ⟨clippedField P value "peer_id", clippedField P value "message_id"⟩
  | _ => none

/-- A message of the canonical context. -/
structure ContextMessage where
  role : MessageRole
  content : String
  origin : Option PeerOrigin
  deriving DecidableEq, Repr

/-- A node as a message of the context, if it has a text. -/
def projectNode (n : ConversationNode) : Option ContextMessage :=
  if n.content = "" then none
  else some ⟨n.role, n.content,
    if n.role = .user then peerOrigin P (Dict.get? n.metadata "origin") else none⟩

/-- `_projection_messages` -/
def projectionMessages (rows : List ConversationNode) : List ContextMessage :=
  rows.filterMap (projectNode P)

/-- `canonical_context` -/
def canonicalContext (s : Conversation) : Coverage × List ContextMessage :=
  (coverage H s (historyRows s s.headNodeId),
    projectionMessages P (historyRows s s.headNodeId))

/-- A view of the context over what a projection has covered. -/
structure ProjectionView where
  valid : Bool
  count : Nat
  cursor : Coverage
  canonicalUsers : List ContextMessage
  suffix : List ContextMessage
  messages : List ContextMessage

/-- The covered rows are a prefix of the history. -/
def coveredPrefix (s : Conversation) (rows : List ConversationNode) (covered : Coverage) : Bool :=
  decide (covered.nodeCount ≤ rows.length) &&
    decide (covered.conversationId = s.conversationId) && decide (covered.branchId = s.branchId) &&
    (decide (covered.headNodeId ∈ (rows.take covered.nodeCount).map (·.nodeId)) ||
      decide (covered.nodeCount = 0 ∧ covered.headNodeId = "")) &&
    decide (digestRows H (rows.take covered.nodeCount) = covered.prefixSha256)

/-- `context_projection_view` -/
def contextProjectionView (s : Conversation) (covered : Option Coverage) : ProjectionView :=
  let rows := historyRows s s.headNodeId
  let valid := covered.any (coveredPrefix H s rows)
  let count := if valid then (covered.map (·.nodeCount)).getD 0 else 0
  { valid := valid
    count := (rows.filter fun n => n.content ≠ "").length
    cursor := match covered with
      | some covered => if valid ∧ count = rows.length then covered else coverage H s rows
      | none => coverage H s rows
    canonicalUsers :=
      if valid then (projectionMessages P (rows.take count)).filter fun m => m.role = .user else []
    suffix := if valid then projectionMessages P (rows.drop count) else []
    messages := if valid then [] else projectionMessages P rows }

/-- `history_nodes`, of a head in the ancestry of the branch. -/
def historyNodes (s : Conversation) (headNodeId : String) (limit : Nat) :
    Except Raised (List ConversationNode) :=
  let head := if headNodeId = "" then s.headNodeId else headNodeId
  if head = "" then .ok []
  else if head ∉ Dag.ancestry s.edges s.headNodeId then
    .error (valueError s!"node {head} is not in branch ancestry")
  else
    .ok (((ancestryNodes s head).insertionSort fun m n => n.byTime m).take
      (min 20000 (max 1 limit))).reverse

/-- A message of a session. -/
structure SessionMessage where
  role : MessageRole
  text : String
  ts : ℚ
  metadata : List (String × Json)

/-- The metadata a session shows. -/
def shownMetadata : List String :=
  ["ticket_id", "attachments", "references", "mood", "steps", "receipt", "origin", "peer_display",
    "run_id", "run_chat_id", "provider_summaries", "text_segments"]

/-- A node as a message of a session. -/
def sessionMessage (n : ConversationNode) : SessionMessage :=
  ⟨n.role, n.content, n.createdAt, Dict.restrict (fun key => shownMetadata.contains key) n.metadata⟩

/-- The last items of a list. -/
def lastItems {α : Type} (limit : Nat) (items : List α) : List α := items.drop (items.length - limit)

/-- The messages of `get_session`, before they are dressed for display. -/
def sessionMessages (maxMessages : Nat) (s : Conversation) : Except Raised (List SessionMessage) :=
  (historyNodes s "" 20000).map fun nodes =>
    lastItems (max 1 maxMessages) (nodes.map sessionMessage)

/-- The priority of a node in the topological order. -/
def nodeKey (s : Conversation) (nodeId : String) : ℚ ×ₗ String :=
  toLex (((s.nodes.find? nodeId).map (·.createdAt)).getD 0, nodeId)

/-- `context_sources` -/
def contextSources (s : Conversation) : Except Raised (Coverage × List ConversationNode) :=
  let rows := if s.headNodeId = "" then [] else ancestryNodes s s.headNodeId
  let ordered := (Dag.topological s.edges (nodeKey s) (rows.map (·.nodeId))).filterMap s.nodes.find?
  if ordered.length ≠ rows.length then
    .error (valueError "Session context ancestry contains a cycle")
  else .ok (coverage H s ordered, ordered)

end ChatSessions
end VariantOne
