import Mathlib.Data.List.Dedup
import Mathlib.Data.List.Sort
import VariantOne.Lib.Machine
import VariantOne.Lib.Redelivery
import VariantOne.SessionCatalog.ChildThreads

/-!
# Messages to a child

A parent sends a message by appending a row.  The worker reads the rows that have not been acknowledged
before each of its model steps, at most twenty of them, and appends those whose id its transcript does not
hold yet.  It acknowledges an id once a boundary with it has been committed.  The process may stop between
any two of these, and the next run is resumed from the last boundary.

`messages_reach_once`: in every run with a clock that increases, the messages of the parent in a boundary
(`fromParent`), with their texts, are the first ones that were sent (`sentMessages`); what is acknowledged is
in a boundary; and the boundary of a model step holds what was sent before the step has read.

The invariant is `Delivered`.  What is acknowledged is always in the last boundary, so a read is one of
`Redelivery`, which is about the ids; that the entries are those that were sent follows, as an id names one
message (`Redelivery.isPrefix_of_map`).
-/

namespace VariantOne
namespace SessionCatalog

open SessionRuntime (SessionError)

/-! ## 1.  The rows -/

namespace ChildDb

/-- A message from the parent to a child. -/
def toChild (childId : String) (m : ChildMessage) : Bool :=
  m.childId = childId && m.direction = .parentToChild

/-- `send` -/
def send (parentChatId childId text : String) (u : BitVec 128) (now : ℚ) (db : ChildDb) :
    Except SessionError ChildMessage × ChildDb :=
  match (db.row childId).filter fun r => r.parentChatId = parentChatId with
  | none => (.error (.lookup "unknown child handle"), db)
  | some r =>
      if r.status.terminal then
        (.error (.runtime "child is terminal; restart it before sending guidance"), db)
      else if strip text = "" then (.error (.value "child message is empty"), db)
      else
        let message : ChildMessage :=
          ⟨newId "cmsg" u, childId, .parentToChild, clip (strip text) 20000, now, none⟩
        Txn.unitOfWork (do insertMessage message; return message) none db

/-- `ORDER BY created_at, message_id` -/
def messageOrder (a b : ChildMessage) : Prop :=
  a.createdAt < b.createdAt ∨ a.createdAt = b.createdAt ∧ a.messageId ≤ b.messageId

instance : DecidableRel messageOrder := fun a b =>
  inferInstanceAs (Decidable (a.createdAt < b.createdAt ∨
    a.createdAt = b.createdAt ∧ a.messageId ≤ b.messageId))

/-- The messages to a child that have not been acknowledged, in their order. -/
def unread (db : ChildDb) (childId : String) : List ChildMessage :=
  (db.messages.rows.filter fun m => toChild childId m && m.consumedAt.isNone).insertionSort messageOrder

/-- `_drain_messages` -/
def drainMessages (db : ChildDb) (childId : String) : List ChildMessage := (db.unread childId).take 20

/-- The ids to acknowledge. -/
def ackIds (messageIds : List String) : List String :=
  ((messageIds.map strip).filter (· ≠ "")).reverse.dedup.reverse

/-- `_ack_messages` -/
def ackMessages (childId : String) (messageIds : List String) (now : ℚ) (db : ChildDb) : ChildDb :=
  let acknowledged := db.messages.updateWhere
    (fun m => toChild childId m && m.consumedAt.isNone && (ackIds messageIds).contains m.messageId)
    (fun m => { m with consumedAt := some now }) fun _ => rfl
  { db with messages := acknowledged }

end ChildDb

/-! ## 2.  The transcript -/

/-- A message of a transcript; `_variant1_inbound_message_id` is empty where it is absent. -/
structure TranscriptEntry where
  role : String
  content : String
  inboundId : String
  deriving DecidableEq, Repr

/-- A message that came from no parent. -/
def TranscriptEntry.plain (m : WorkerMessage) : TranscriptEntry := ⟨m.role, m.content, ""⟩

/-- A message from the parent. -/
def TranscriptEntry.inbound (m : TranscriptEntry) : Bool := m.inboundId ≠ ""

/-- The messages from the parent. -/
def fromParent (messages : List TranscriptEntry) : List TranscriptEntry :=
  messages.filter TranscriptEntry.inbound

/-- The ids of the messages from the parent. -/
def inboundIds (messages : List TranscriptEntry) : List String :=
  (fromParent messages).map (·.inboundId)

/-- One message of `prepare_messages`: appended, unless its id is known or it has no text. -/
def appendInbound (messages : List TranscriptEntry) (m : ChildMessage) : List TranscriptEntry :=
  let messageId := strip m.messageId
  let text := strip m.text
  if messageId ≠ "" ∧ messageId ∈ inboundIds messages then messages
  else if text = "" then messages
  else messages ++ [⟨"user", "[PARENT MESSAGE]\n" ++ text, messageId⟩]

/-- `HeadlessModelStepPolicy.prepare_messages` -/
def prepareMessages (messages : List TranscriptEntry) (inbound : List ChildMessage) :
    List TranscriptEntry := inbound.foldl appendInbound messages

/-- The system message is refreshed when a run is resumed. -/
def refreshSystem (system : String) : List TranscriptEntry → List TranscriptEntry
  | [] => [⟨"system", system, ""⟩]
  | m :: ms => if m.role = "system" then ⟨"system", system, ""⟩ :: ms else ⟨"system", system, ""⟩ :: m :: ms

/-- A compaction that keeps the messages of the parent, with their ids. -/
structure MessageCompaction where
  compress : List TranscriptEntry → List TranscriptEntry
  keeps : ∀ messages, fromParent (compress messages) = fromParent messages

/-! ## 3.  The worker -/

/-- Where a worker stands, between two of its steps. -/
inductive WorkerNode where
  | init
  | prepare (route : WorkerRoute)
  | at (route : WorkerRoute)
  /-- A model step has read the messages. -/
  | drained
  /-- A model step is done, its boundary is not committed. -/
  | stepped (route : WorkerRoute)
  /-- The boundary is committed, the messages in it are not acknowledged. -/
  | acknowledging (route : WorkerRoute)
  | toolsDone (route : WorkerRoute)
  | finalized
  | ended
  deriving DecidableEq, Repr

structure MessageWorker where
  node : WorkerNode
  messages : List TranscriptEntry
  deriving DecidableEq, Repr

/-- A committed boundary: the transcript, and where a run goes on from it; a terminal one is not
resumed. -/
structure MessageBoundary where
  messages : List TranscriptEntry
  next : Option WorkerRoute
  deriving DecidableEq, Repr

/-- A child's messages, its boundaries and its worker. -/
structure MessageWorld where
  db : ChildDb
  boundaries : List MessageBoundary
  worker : Option MessageWorker

inductive MessageStep where
  | send (parentChatId childId text : String) (u : BitVec 128) (now : ℚ)
  /-- A run starts: fresh, or from the last boundary. -/
  | start (system : String)
  /-- A model step reads the messages. -/
  | drain
  /-- A model step that is told to stop before it reads. -/
  | interrupt
  /-- The rest of a model step: what it appends, and the route. -/
  | model (appended : List WorkerMessage) (route : WorkerRoute)
  /-- A tool step: its results, whether the transcript is compacted, and the route. -/
  | tools (results : List WorkerMessage) (compact : Bool) (route : WorkerRoute)
  | commit
  | acknowledge (now : ℚ)
  /-- The process stops. -/
  | stop
  /-- The run of the child is settled. -/
  | finish (f : ChildDb.Finish) (u : BitVec 128) (now : ℚ)

inductive MessageReply where
  | raised (e : SessionError)
  | nothing
  | sent (childId messageId : String)
  | started
  | stopped
  /-- What was unread when the messages were read. -/
  | drained (unread : List String)
  | committed (b : MessageBoundary)
  deriving DecidableEq, Repr

/-- The boundary a worker is to commit, and where it stands then. -/
def MessageWorker.boundary (w : MessageWorker) : Option (MessageBoundary × WorkerNode) :=
  match w.node with
  | .init => some (⟨[], some .modelStep⟩, .prepare .modelStep)
  | .prepare route => some (⟨w.messages, some route⟩, .at route)
  | .stepped route => some (⟨w.messages, some route⟩, .acknowledging route)
  | .toolsDone route => some (⟨w.messages, some route⟩, .at route)
  | .at .finalize => some (⟨w.messages, none⟩, .finalized)
  | .finalized => some (⟨w.messages, none⟩, .ended)
  | .at .modelStep | .at .tools | .drained | .acknowledging _ | .ended => none

namespace MessageWorld

variable (C : MessageCompaction) (childId : String)

/-- The first messages of a fresh run. -/
def openingMessages (system : String) : List TranscriptEntry :=
  [⟨"system", system, ""⟩, ⟨"user", "Begin working on the sub-goal above.", ""⟩]

/-- The run of a worker from where the boundaries are. -/
def start (system : String) (s : MessageWorld) : MessageReply × MessageWorld :=
  match s.worker, s.boundaries.getLast? with
  | some _, _ => (.nothing, s)
  | none, none => (.started, { s with worker := some ⟨.init, openingMessages system⟩ })
  | none, some b =>
      match b.next with
      | none => (.nothing, s)
      | some route =>
          (.started, { s with worker := some ⟨.prepare route, refreshSystem system b.messages⟩ })

/-- A step of the worker that is there. -/
def workerStep (l : MessageStep) (w : MessageWorker) (s : MessageWorld) : MessageReply × MessageWorld :=
  match l, w.node with
  | .drain, .at .modelStep =>
      (.drained ((s.db.unread childId).map (·.messageId)),
        { s with worker := some ⟨.drained, prepareMessages w.messages (s.db.drainMessages childId)⟩ })
  | .interrupt, .at .modelStep => (.nothing, { s with worker := some ⟨.stepped .finalize, w.messages⟩ })
  | .model appended route, .drained =>
      (.nothing,
        { s with worker := some ⟨.stepped route, w.messages ++ appended.map TranscriptEntry.plain⟩ })
  | .tools results compact route, .at .tools =>
      let messages := w.messages ++ results.map TranscriptEntry.plain
      (.nothing,
        { s with worker := some ⟨.toolsDone route, if compact then C.compress messages else messages⟩ })
  | .acknowledge now, .acknowledging route =>
      (.nothing,
        { s with
          db := s.db.ackMessages childId (inboundIds w.messages) now
          worker := some ⟨.at route, w.messages⟩ })
  | .commit, _ =>
      match w.boundary with
      | none => (.nothing, s)
      | some (b, node) =>
          (.committed b,
            { s with boundaries := s.boundaries ++ [b], worker := some ⟨node, w.messages⟩ })
  | _, _ => (.nothing, s)

def step (l : MessageStep) (s : MessageWorld) : MessageReply × MessageWorld :=
  match l with
  | .send parentChatId child text u now =>
      match s.db.send parentChatId child text u now with
      | (.ok m, db) => (.sent m.childId m.messageId, { s with db := db })
      | (.error e, db) => (.raised e, { s with db := db })
  | .start system => s.start system
  | .stop => (.stopped, { s with worker := none })
  | .finish f u now =>
      match Txn.unitOfWork (ChildDb.finishTxn childId f u now) none s.db with
      | (.ok _, db) => (.nothing, { s with db := db })
      | (.error e, db) => (.raised e, { s with db := db })
  | l => s.worker.elim (.nothing, s) fun w => workerStep C childId l w s

end MessageWorld

/-- The messages of a child, from a database without any. -/
def childMessages (C : MessageCompaction) (childId : String) (db : ChildDb) :
    Machine MessageWorld MessageStep MessageReply :=
  ⟨⟨{ db with messages := Table.empty }, [], none⟩, MessageWorld.step C childId⟩

/-! ## 4.  Texts -/

/-- What a strip leaves begins with a letter. -/
theorem stripChars_cons {cs rest : List Char} {c : Char} (h : stripChars cs = c :: rest) :
    isSpace c = false := by
  have hprefix : c :: rest <+: cs.dropWhile isSpace := h ▸ List.rdropWhile_prefix _ _
  obtain ⟨suffix, hsuffix⟩ := hprefix
  have hnot := List.head_dropWhile_not isSpace (l := cs) (by rw [← hsuffix]; simp)
  simpa [← hsuffix] using hnot

/-- A text with a letter in it is not blank. -/
theorem strip_ne_empty {s : String} {c : Char} (hc : c ∈ s.toList) (hspace : isSpace c = false) :
    strip s ≠ "" := by
  rw [strip_eq]
  intro hempty
  have hall := List.rdropWhile_eq_nil_iff.mp (String.ofList_eq_empty_iff.mp hempty)
  cases hdrop : s.toList.dropWhile isSpace with
  | nil =>
      have hspace' := List.dropWhile_eq_nil_iff.mp hdrop c hc
      exact absurd (hspace'.symm.trans hspace) (by decide)
  | cons d rest =>
      have hnot := List.head_dropWhile_not isSpace (l := s.toList) (by rw [hdrop]; simp)
      have hd : isSpace d = true := hall d (by rw [hdrop]; exact List.mem_cons_self)
      simp [hdrop, hd] at hnot

/-- A stripped text that is not blank is not blank when it is clipped. -/
theorem strip_clip_strip_ne {s : String} (h : strip s ≠ "") (n : Nat) :
    strip (clip (strip s) (n + 1)) ≠ "" := by
  rw [strip_eq] at h
  cases hchars : stripChars s.toList with
  | nil =>
      rw [hchars] at h
      exact absurd rfl h
  | cons c rest =>
      refine strip_ne_empty (c := c) ?_ (stripChars_cons hchars)
      rw [clip, strip_eq, String.toList_ofList, String.toList_ofList, hchars]
      exact List.mem_cons_self

/-! ## 5.  Reading -/

/-- The messages to a child, in the order in which they were inserted. -/
def ChildDb.inbox (db : ChildDb) (childId : String) : List ChildMessage :=
  db.messages.rows.filter (ChildDb.toChild childId)

/-- The ids of the messages to a child. -/
def ChildDb.inboxIds (db : ChildDb) (childId : String) : List String :=
  (db.inbox childId).map (·.messageId)

/-- The ids that are acknowledged. -/
def ChildDb.acknowledgedIds (db : ChildDb) (childId : String) : List String :=
  ((db.inbox childId).filter (·.consumedAt.isSome)).map (·.messageId)

section Reading

variable {db : ChildDb} {childId : String}

theorem nodup_inboxIds (db : ChildDb) (childId : String) : (db.inboxIds childId).Nodup :=
  (db.messages.unique.sublist ((List.filter_sublist).map _))

/-- With a clock that increases, the order is that of the insertions. -/
theorem unread_eq (hsorted : (db.inbox childId).Pairwise fun a b => a.createdAt < b.createdAt) :
    db.unread childId = (db.inbox childId).filter (·.consumedAt.isNone) := by
  have hfilter : (db.messages.rows.filter fun m => ChildDb.toChild childId m && m.consumedAt.isNone) =
      (db.inbox childId).filter (·.consumedAt.isNone) := by
    rw [ChildDb.inbox, List.filter_filter]
    exact List.filter_congr fun m _ => Bool.and_comm _ _
  unfold ChildDb.unread
  rw [hfilter]
  exact ((hsorted.sublist List.filter_sublist).imp fun hlt => Or.inl hlt).insertionSort_eq

/-- What is unread is what is pending. -/
theorem map_unread (hsorted : (db.inbox childId).Pairwise fun a b => a.createdAt < b.createdAt) :
    (db.unread childId).map (·.messageId) =
      Redelivery.pending (db.inboxIds childId) (db.acknowledgedIds childId) := by
  rw [unread_eq hsorted]
  unfold Redelivery.pending ChildDb.inboxIds
  rw [List.filter_map]
  congr 1
  refine List.filter_congr fun m hm => ?_
  rw [Function.comp_apply]
  cases hconsumed : m.consumedAt with
  | some t =>
      have hmem : m.messageId ∈ db.acknowledgedIds childId :=
        List.mem_map.mpr ⟨m, List.mem_filter.mpr ⟨hm, by rw [hconsumed]; rfl⟩, rfl⟩
      simp [hmem]
  | none =>
      have hnot : m.messageId ∉ db.acknowledgedIds childId := by
        intro hmem
        obtain ⟨m', hm', hid⟩ := List.mem_map.mp hmem
        obtain ⟨hm', hsome⟩ := List.mem_filter.mp hm'
        obtain rfl := List.inj_on_of_nodup_map (nodup_inboxIds db childId) hm' hm hid
        rw [hconsumed] at hsome
        cases hsome
      simp [hnot]

/-! ### The transcript -/

theorem fromParent_append (ms ms' : List TranscriptEntry) :
    fromParent (ms ++ ms') = fromParent ms ++ fromParent ms' := List.filter_append ..

theorem inboundIds_append (ms ms' : List TranscriptEntry) :
    inboundIds (ms ++ ms') = inboundIds ms ++ inboundIds ms' := by
  unfold inboundIds
  rw [fromParent_append, List.map_append]

@[simp] theorem fromParent_plain (ms : List WorkerMessage) :
    fromParent (ms.map TranscriptEntry.plain) = [] := by
  unfold fromParent
  rw [List.filter_eq_nil_iff]
  intro m hm
  obtain ⟨m', -, rfl⟩ := List.mem_map.mp hm
  simp [TranscriptEntry.plain, TranscriptEntry.inbound]

/-- A message of the parent in a transcript. -/
def parentMessage (messageId text : String) : TranscriptEntry :=
  ⟨"user", "[PARENT MESSAGE]\n" ++ strip text, messageId⟩

/-- A row in a transcript. -/
def ChildMessage.entry (m : ChildMessage) : TranscriptEntry := parentMessage m.messageId m.text

/-- Messages as they are sent: with an id, and with a text. -/
def ChildMessage.sound (m : ChildMessage) : Prop :=
  strip m.messageId = m.messageId ∧ m.messageId ≠ "" ∧ strip m.text ≠ ""

/-- **Reading takes over the ids that are not known.** -/
theorem inboundIds_prepareMessages {inbound : List ChildMessage} (hsound : ∀ m ∈ inbound, m.sound)
    (hnodup : (inbound.map (·.messageId)).Nodup) (ms : List TranscriptEntry) :
    inboundIds (prepareMessages ms inbound) =
      inboundIds ms ++ (inbound.map (·.messageId)).filter (· ∉ inboundIds ms) := by
  induction inbound generalizing ms with
  | nil => exact (List.append_nil _).symm
  | cons m inbound ih =>
      obtain ⟨hstrip, hid, htext⟩ := hsound m List.mem_cons_self
      rw [List.map_cons, List.nodup_cons] at hnodup
      have ih := ih (fun m' hm' => hsound m' (List.mem_cons_of_mem _ hm')) hnodup.2
      show inboundIds (prepareMessages (appendInbound ms m) inbound) = _
      rw [ih, List.map_cons, List.filter_cons]
      unfold appendInbound
      dsimp only
      rw [hstrip]
      by_cases hknown : m.messageId ∈ inboundIds ms
      · rw [if_pos ⟨hid, hknown⟩, if_neg (by simpa using hknown)]
      · rw [if_neg fun h => hknown h.2, if_neg htext, if_pos (by simpa using hknown)]
        have hnew : inboundIds [⟨"user", "[PARENT MESSAGE]\n" ++ strip m.text, m.messageId⟩] =
            [m.messageId] := by
          simp [inboundIds, fromParent, TranscriptEntry.inbound, hid]
        rw [inboundIds_append, hnew, List.append_assoc]
        congr 1
        -- the other ids differ from this one
        rw [List.singleton_append]
        congr 1
        refine List.filter_congr fun x hx => ?_
        have hne : x ≠ m.messageId := fun h => hnodup.1 (h ▸ hx)
        simp [hne]

/-- What reading appends are the messages that were read. -/
theorem mem_prepareMessages {inbound : List ChildMessage} (hsound : ∀ m ∈ inbound, m.sound)
    {ms : List TranscriptEntry} {m : TranscriptEntry} (hm : m ∈ prepareMessages ms inbound) :
    m ∈ ms ∨ m ∈ inbound.map ChildMessage.entry := by
  induction inbound generalizing ms with
  | nil => exact .inl hm
  | cons c inbound ih =>
      have hrest : ∀ m' ∈ inbound, m'.sound := fun m' hm' => hsound m' (List.mem_cons_of_mem _ hm')
      rcases ih hrest (show m ∈ prepareMessages (appendInbound ms c) inbound from hm) with hm | hm
      · unfold appendInbound at hm
        dsimp only at hm
        split at hm
        · exact .inl hm
        · split at hm
          · exact .inl hm
          · rcases List.mem_append.mp hm with hm | hm
            · exact .inl hm
            · obtain rfl := List.mem_singleton.mp hm
              rw [(hsound c List.mem_cons_self).1]
              exact .inr List.mem_cons_self
      · exact .inr (List.mem_cons_of_mem _ hm)

/-- **A model step reads** what is pending into its transcript. -/
theorem inboundIds_drain (hsorted : (db.inbox childId).Pairwise fun a b => a.createdAt < b.createdAt)
    (hsound : ∀ m ∈ db.inbox childId, m.sound) (ms : List TranscriptEntry) :
    inboundIds (prepareMessages ms (db.drainMessages childId)) =
      Redelivery.read 20 (db.inboxIds childId) (db.acknowledgedIds childId) (inboundIds ms) := by
  have hids : (db.drainMessages childId).map (·.messageId) =
      (Redelivery.pending (db.inboxIds childId) (db.acknowledgedIds childId)).take 20 := by
    rw [ChildDb.drainMessages, List.map_take, map_unread hsorted]
  rw [inboundIds_prepareMessages, hids]
  · rfl
  · intro m hm
    have hm := List.mem_of_mem_take hm
    rw [unread_eq hsorted] at hm
    exact hsound m (List.mem_of_mem_filter hm)
  · rw [hids]
    exact ((nodup_inboxIds db childId).filter _).sublist (List.take_sublist _ _)

/-! ### Acknowledging -/

/-- A row once it is acknowledged. -/
def ackRow (childId : String) (ids : List String) (now : ℚ) (m : ChildMessage) : ChildMessage :=
  if ChildDb.toChild childId m && m.consumedAt.isNone && (ChildDb.ackIds ids).contains m.messageId then
    { m with consumedAt := some now }
  else m

theorem ackRow_fields (childId : String) (ids : List String) (now : ℚ) (m : ChildMessage) :
    (ackRow childId ids now m).entry = m.entry ∧
      (ackRow childId ids now m).createdAt = m.createdAt ∧
      ((ackRow childId ids now m).sound ↔ m.sound) ∧
      ChildDb.toChild childId (ackRow childId ids now m) = ChildDb.toChild childId m := by
  unfold ackRow
  split
  · exact ⟨rfl, rfl, Iff.rfl, rfl⟩
  · exact ⟨rfl, rfl, Iff.rfl, rfl⟩

theorem inbox_ackMessages (db : ChildDb) (childId : String) (ids : List String) (now : ℚ) :
    (db.ackMessages childId ids now).inbox childId = (db.inbox childId).map (ackRow childId ids now) := by
  have hrows : (db.ackMessages childId ids now).messages.rows =
      db.messages.rows.map (ackRow childId ids now) := rfl
  have hchild : ChildDb.toChild childId ∘ ackRow childId ids now = ChildDb.toChild childId :=
    funext fun m => (ackRow_fields childId ids now m).2.2.2
  unfold ChildDb.inbox
  rw [hrows, List.filter_map, hchild]

/-- Acknowledging inserts nothing. -/
theorem inboxIds_ackMessages (db : ChildDb) (childId : String) (ids : List String) (now : ℚ) :
    (db.ackMessages childId ids now).inboxIds childId = db.inboxIds childId := by
  unfold ChildDb.inboxIds
  rw [inbox_ackMessages, List.map_map]
  exact List.map_congr_left fun m _ => congrArg (·.inboundId) (ackRow_fields childId ids now m).1

/-- Only the given ids are acknowledged. -/
theorem acknowledgedIds_ackMessages {ids : List String} (hids : ∀ id ∈ ids, strip id = id) (now : ℚ) :
    (db.ackMessages childId ids now).acknowledgedIds childId ⊆ db.acknowledgedIds childId ++ ids := by
  intro id hid
  unfold ChildDb.acknowledgedIds at hid
  rw [inbox_ackMessages] at hid
  obtain ⟨m', hm', rfl⟩ := List.mem_map.mp hid
  obtain ⟨hm', hsome⟩ := List.mem_filter.mp hm'
  obtain ⟨m, hm, rfl⟩ := List.mem_map.mp hm'
  have hmessage : (ackRow childId ids now m).messageId = m.messageId :=
    congrArg (·.inboundId) (ackRow_fields childId ids now m).1
  rw [hmessage]
  unfold ackRow at hsome
  split at hsome
  · rename_i hack
    have hmem : m.messageId ∈ ChildDb.ackIds ids := by
      have := (Bool.and_eq_true_iff.mp hack).2
      simpa using this
    unfold ChildDb.ackIds at hmem
    rw [List.mem_reverse, List.mem_dedup, List.mem_reverse, List.mem_filter, List.mem_map] at hmem
    obtain ⟨⟨id, hid, hstrip⟩, -⟩ := hmem
    rw [hids id hid] at hstrip
    exact List.mem_append_right _ (hstrip ▸ hid)
  · exact List.mem_append_left _ (List.mem_map.mpr ⟨m, List.mem_filter.mpr ⟨hm, hsome⟩, rfl⟩)

/-! ### Sending -/

theorem ChildDb.send_error {parentChatId text : String} {u : BitVec 128} {now : ℚ} {e : SessionError}
    {db' : ChildDb} (h : db.send parentChatId childId text u now = (.error e, db')) : db' = db := by
  unfold ChildDb.send at h
  split at h
  · exact (Prod.mk.inj h).2.symm
  · split at h
    · exact (Prod.mk.inj h).2.symm
    · split at h
      · exact (Prod.mk.inj h).2.symm
      · exact Txn.unitOfWork_error h

/-- A message that is sent is the last row, and it has a text. -/
theorem ChildDb.send_ok {parentChatId text : String} {u : BitVec 128} {now : ℚ} {m : ChildMessage}
    {db' : ChildDb} (h : db.send parentChatId childId text u now = (.ok m, db')) :
    m = ⟨newId "cmsg" u, childId, .parentToChild, clip (strip text) 20000, now, none⟩ ∧
      strip text ≠ "" ∧ db'.messages.rows = db.messages.rows ++ [m] := by
  unfold ChildDb.send at h
  split at h
  · cases (Prod.mk.inj h).1
  · split at h
    · cases (Prod.mk.inj h).1
    · split at h
      · cases (Prod.mk.inj h).1
      · rename_i htext
        obtain ⟨_, db₁, hinsert, hpure⟩ := Txn.run_bind_eq_ok.mp (Txn.unitOfWork_ok.mp h).1
        obtain ⟨rfl, rfl⟩ := Txn.run_pure_eq_ok.mp hpure
        refine ⟨rfl, htext, ?_⟩
        have hinsert' : (ChildDb.insertMessageIf true _).run db = .ok (_, db₁) := hinsert
        exact (ChildDb.insertMessageIf_ok hinsert').2.2

/-- What is sent can be read: it has an id and a text. -/
theorem sound_of_send {parentChatId text : String} {u : BitVec 128} {now : ℚ} {m : ChildMessage}
    {db' : ChildDb} (h : db.send parentChatId childId text u now = (.ok m, db')) : m.sound := by
  obtain ⟨rfl, htext, -⟩ := ChildDb.send_ok h
  have hid : strip (newId "cmsg" u) = newId "cmsg" u ∧ newId "cmsg" u ≠ "" := strip_newId (by decide) u
  exact ⟨hid.1, hid.2, strip_clip_strip_ne htext 19999⟩

/-- The inbox of a child, where a message is sent to some child. -/
theorem inbox_send {parentChatId child text : String} {u : BitVec 128} {now : ℚ} {m : ChildMessage}
    {db' : ChildDb} (h : db.send parentChatId child text u now = (.ok m, db')) :
    db'.inbox childId = db.inbox childId ++ if child = childId then [m] else [] := by
  obtain ⟨hm, -, hrows⟩ := ChildDb.send_ok h
  unfold ChildDb.inbox
  rw [hrows, List.filter_append, hm]
  congr 1
  by_cases hchild : child = childId
  · simp [hchild, ChildDb.toChild]
  · simp [hchild, ChildDb.toChild]

end Reading

/-! ## 6.  What a history has sent and read -/

abbrev MessageHistory := List (MessageStep × MessageReply)

/-- The message a step has sent to a child. -/
def sentOf (childId : String) : MessageStep × MessageReply → Option TranscriptEntry
  | (.send _ _ text _ _, .sent child messageId) =>
      if child = childId then some (parentMessage messageId (clip (strip text) 20000)) else none
  | _ => none

/-- The messages sent to a child, the first one first. -/
def sentMessages (childId : String) (h : MessageHistory) : List TranscriptEntry :=
  (h.filterMap (sentOf childId)).reverse

/-- The model step under way has read the messages: what was unread, and what had been sent. -/
def stepDrain (childId : String) : MessageHistory → Option (List String × List TranscriptEntry)
  | [] => none
  | (_, .drained unread) :: h => some (unread, sentMessages childId h)
  | (_, .committed _) :: _ | (_, .started) :: _ | (_, .stopped) :: _ => none
  | (_, .raised _) :: h | (_, .nothing) :: h | (_, .sent _ _) :: h => stepDrain childId h

/-- The clock increases: a message is sent after all that are there. -/
def Ticking (_ : MessageHistory) (s : MessageWorld) : MessageStep → Prop
  | .send _ _ _ _ now => ∀ m ∈ s.db.messages.rows, m.createdAt < now
  | _ => True

/-- A transcript holds a prefix of what was sent, in messages of the user. -/
def HoldsPrefix (sent : List TranscriptEntry) (ms : List TranscriptEntry) : Prop :=
  fromParent ms <+: sent ∧ ∀ m ∈ ms, m.inbound = true → m.role = "user"

/-- **The messages are delivered.**  Transcripts hold prefixes of what was sent, and the last
boundary holds what is acknowledged. -/
structure Delivered (childId : String) (h : MessageHistory) (s : MessageWorld) : Prop where
  sent : (s.db.inbox childId).map ChildMessage.entry = sentMessages childId h
  sorted : (s.db.inbox childId).Pairwise fun a b => a.createdAt < b.createdAt
  sound : ∀ m ∈ s.db.inbox childId, m.sound
  worker : ∀ w, s.worker = some w → HoldsPrefix (sentMessages childId h) w.messages ∧
    s.db.acknowledgedIds childId ⊆ inboundIds w.messages
  boundaries : ∀ b ∈ s.boundaries, HoldsPrefix (sentMessages childId h) b.messages
  last : s.db.acknowledgedIds childId ⊆
    s.boundaries.getLast?.elim [] fun b => inboundIds b.messages
  /-- A fresh run has read nothing. -/
  init : ∀ w, s.worker = some w → w.node = .init → fromParent w.messages = []
  acknowledging : ∀ w route, s.worker = some w → w.node = .acknowledging route →
    ∃ b, s.boundaries.getLast? = some b ∧ b.messages = w.messages
  reading : ∀ unread sent, stepDrain childId h = some (unread, sent) →
    ∃ w, s.worker = some w ∧ (w.node = .drained ∨ ∃ route, w.node = .stepped route) ∧
      ∀ m ∈ sent, m.inboundId ∉ unread.drop 20 → m ∈ fromParent w.messages

section Delivery

variable {C : MessageCompaction} {childId : String} {h : MessageHistory} {s s' : MessageWorld}
  {l : MessageStep} {reply : MessageReply}

@[simp] theorem sentOf_nothing (l : MessageStep) : sentOf childId (l, .nothing) = none := by
  cases l <;> rfl

theorem sentMessages_cons (e : MessageStep × MessageReply) (h : MessageHistory) :
    sentMessages childId (e :: h) = sentMessages childId h ++ (sentOf childId e).toList := by
  unfold sentMessages
  cases hsent : sentOf childId e with
  | none =>
      rw [List.filterMap_cons_none hsent]
      exact (List.append_nil _).symm
  | some m =>
      rw [List.filterMap_cons_some hsent, List.reverse_cons]
      rfl

/-- A step that sends nothing. -/
theorem sentMessages_of_none {e : MessageStep × MessageReply} (he : sentOf childId e = none)
    (h : MessageHistory) : sentMessages childId (e :: h) = sentMessages childId h := by
  rw [sentMessages_cons, he]
  exact List.append_nil _

theorem Delivered.inboxIds (hs : Delivered childId h s) :
    s.db.inboxIds childId = (sentMessages childId h).map (·.inboundId) := by
  rw [← hs.sent, List.map_map]
  rfl

/-- An id names one message. -/
theorem Delivered.nodup (hs : Delivered childId h s) :
    ((sentMessages childId h).map (·.inboundId)).Nodup :=
  hs.inboxIds ▸ nodup_inboxIds s.db childId

theorem HoldsPrefix.ids {sent ms : List TranscriptEntry} (hms : HoldsPrefix sent ms) :
    inboundIds ms <+: sent.map (·.inboundId) := hms.1.map _

theorem HoldsPrefix.mono {sent : List TranscriptEntry} {ms : List TranscriptEntry}
    (hms : HoldsPrefix sent ms) (more : List TranscriptEntry) : HoldsPrefix (sent ++ more) ms :=
  ⟨hms.1.trans (List.prefix_append _ _), hms.2⟩

theorem HoldsPrefix.append_plain {sent : List TranscriptEntry} {ms : List TranscriptEntry}
    (hms : HoldsPrefix sent ms) (more : List WorkerMessage) :
    HoldsPrefix sent (ms ++ more.map TranscriptEntry.plain) := by
  constructor
  · rw [fromParent_append, fromParent_plain, List.append_nil]
    exact hms.1
  · intro m hm hinbound
    rcases List.mem_append.mp hm with hm | hm
    · exact hms.2 m hm hinbound
    · obtain ⟨m', -, rfl⟩ := List.mem_map.mp hm
      simp [TranscriptEntry.plain, TranscriptEntry.inbound] at hinbound

theorem HoldsPrefix.compress {sent : List TranscriptEntry} {ms : List TranscriptEntry}
    (hms : HoldsPrefix sent ms) : HoldsPrefix sent (C.compress ms) := by
  constructor
  · rw [C.keeps]
    exact hms.1
  · intro m hm hinbound
    have hkept : m ∈ fromParent (C.compress ms) := List.mem_filter.mpr ⟨hm, hinbound⟩
    rw [C.keeps] at hkept
    exact hms.2 m (List.mem_of_mem_filter hkept) hinbound

/-- Refreshing the system message leaves the messages of the parent. -/
theorem HoldsPrefix.refreshSystem {sent : List TranscriptEntry} {ms : List TranscriptEntry}
    (hms : HoldsPrefix sent ms) (system : String) :
    HoldsPrefix sent (refreshSystem system ms) ∧
      fromParent (SessionCatalog.refreshSystem system ms) = fromParent ms := by
  have hnew : TranscriptEntry.inbound ⟨"system", system, ""⟩ = false := rfl
  have hids : fromParent (SessionCatalog.refreshSystem system ms) = fromParent ms := by
    unfold fromParent
    cases ms with
    | nil => rfl
    | cons m ms =>
        rw [SessionCatalog.refreshSystem]
        split
        · rename_i hrole
          have hm : m.inbound = false := by
            by_contra hinbound
            have huser := hms.2 m List.mem_cons_self (by simpa using hinbound)
            rw [hrole] at huser
            exact absurd huser (by decide)
          rw [List.filter_cons_of_neg (by rw [hnew]; decide), List.filter_cons_of_neg (by rw [hm]; decide)]
        · rw [List.filter_cons_of_neg (by rw [hnew]; decide)]
  refine ⟨⟨hids ▸ hms.1, fun m hm hinbound => ?_⟩, hids⟩
  cases ms with
  | nil =>
      obtain rfl := List.mem_singleton.mp hm
      exact absurd (hnew.symm.trans hinbound) (by decide)
  | cons m' ms =>
      rw [SessionCatalog.refreshSystem] at hm
      split at hm <;> rcases List.mem_cons.mp hm with rfl | hm
      · exact absurd (hnew.symm.trans hinbound) (by decide)
      · exact hms.2 m (List.mem_cons_of_mem _ hm) hinbound
      · exact absurd (hnew.symm.trans hinbound) (by decide)
      · exact hms.2 m hm hinbound

/-! ## 7.  Every step delivers -/

/-- A step that nobody sees. -/
theorem Delivered.idle (hs : Delivered childId h s) (hsent : sentOf childId (l, reply) = none)
    (hdrain : stepDrain childId ((l, reply) :: h) = stepDrain childId h) :
    Delivered childId ((l, reply) :: h) s := by
  have hids : sentMessages childId ((l, reply) :: h) = sentMessages childId h := sentMessages_of_none hsent h
  exact ⟨hids ▸ hs.sent, hs.sorted, hs.sound, hids ▸ hs.worker, hids ▸ hs.boundaries, hs.last, hs.init,
    hs.acknowledging, hdrain ▸ hs.reading⟩

/-- Other rows than those of the child. -/
theorem Delivered.otherRows (hs : Delivered childId h s) {db : ChildDb}
    (hinbox : db.inbox childId = s.db.inbox childId) : Delivered childId h { s with db := db } := by
  have hacked : db.acknowledgedIds childId = s.db.acknowledgedIds childId := by
    unfold ChildDb.acknowledgedIds
    rw [hinbox]
  exact ⟨hinbox ▸ hs.sent, hinbox ▸ hs.sorted, hinbox ▸ hs.sound, hacked ▸ hs.worker, hs.boundaries,
    hacked ▸ hs.last, hs.init, hs.acknowledging, hs.reading⟩

/-- Another transcript of the worker, which holds what the old one held. -/
theorem Delivered.transcript (hs : Delivered childId h s) {w w' : MessageWorker}
    (hw : s.worker = some w) (hheld : HoldsPrefix (sentMessages childId h) w'.messages)
    (hmore : fromParent w.messages ⊆ fromParent w'.messages) (hinit : w'.node ≠ .init)
    (hack : ∀ route, w'.node ≠ .acknowledging route)
    (hnode : w.node = .drained ∨ (∃ route, w.node = .stepped route) →
      ∃ route, w'.node = .stepped route) :
    Delivered childId ((l, .nothing) :: h) { s with worker := some w' } := by
  refine Delivered.idle ?_ (sentOf_nothing l) rfl
  refine ⟨hs.sent, hs.sorted, hs.sound, fun x hx => ?_, hs.boundaries, hs.last, fun x hx hn => ?_,
    fun x route hx hn => ?_, fun unread sent hdrain => ?_⟩
  · obtain rfl := Option.some.inj hx
    exact ⟨hheld, fun id hid => List.map_subset _ hmore ((hs.worker w hw).2 hid)⟩
  · obtain rfl := Option.some.inj hx
    exact absurd hn hinit
  · obtain rfl := Option.some.inj hx
    exact absurd hn (hack route)
  · obtain ⟨x, hx, hn, hread⟩ := hs.reading unread sent hdrain
    obtain rfl := Option.some.inj (hw.symm.trans hx)
    exact ⟨w', rfl, .inr (hnode hn), fun m hm hwindow => hmore (hread m hm hwindow)⟩

/-- A message to the child itself. -/
theorem Delivered.sent_row (hs : Delivered childId h s) {parentChatId text : String} {u : BitVec 128}
    {now : ℚ} (htick : Ticking h s (.send parentChatId childId text u now)) {m : ChildMessage} {db : ChildDb}
    (hsend : s.db.send parentChatId childId text u now = (.ok m, db)) :
    Delivered childId ((.send parentChatId childId text u now, .sent m.childId m.messageId) :: h)
      { s with db := db } := by
  have hm := (ChildDb.send_ok hsend).1
  have hinbox : db.inbox childId = s.db.inbox childId ++ [m] := by
    rw [inbox_send hsend, if_pos rfl]
  have hacked : db.acknowledgedIds childId = s.db.acknowledgedIds childId := by
    have hnone : m.consumedAt = none := by rw [hm]
    unfold ChildDb.acknowledgedIds
    rw [hinbox, List.filter_append, List.filter_cons_of_neg (by rw [hnone]; decide)]
    exact congrArg _ (List.append_nil _)
  have hcons : sentMessages childId
      ((.send parentChatId childId text u now, .sent m.childId m.messageId) :: h) =
        sentMessages childId h ++ [m.entry] := by
    have hentry : m.entry = parentMessage m.messageId (clip (strip text) 20000) := by
      rw [hm]
      rfl
    rw [sentMessages_cons, sentOf, if_pos (by rw [hm]), hentry]
    rfl
  refine ⟨?_, ?_, ?_, fun w hw => ?_, fun b hb => ?_, hacked ▸ hs.last, hs.init, hs.acknowledging,
    hs.reading⟩
  · rw [hcons, ← hs.sent]
    show (db.inbox childId).map ChildMessage.entry = _
    rw [hinbox, List.map_append]
    rfl
  · rw [hinbox]
    refine List.pairwise_append.mpr ⟨hs.sorted, List.pairwise_singleton _ _, fun a ha b hb => ?_⟩
    obtain rfl := List.mem_singleton.mp hb
    rw [hm]
    exact htick a (List.mem_of_mem_filter ha)
  · intro m' hm'
    rw [hinbox] at hm'
    rcases List.mem_append.mp hm' with hm' | hm'
    · exact hs.sound m' hm'
    · obtain rfl := List.mem_singleton.mp hm'
      exact sound_of_send hsend
  · rw [hcons, hacked]
    exact ⟨(hs.worker w hw).1.mono _, (hs.worker w hw).2⟩
  · rw [hcons]
    exact (hs.boundaries b hb).mono _

theorem Delivered.send (hs : Delivered childId h s) {parentChatId child text : String}
    {u : BitVec 128} {now : ℚ} (htick : Ticking h s (.send parentChatId child text u now))
    (hstep : MessageWorld.step C childId (.send parentChatId child text u now) s = (reply, s')) :
    Delivered childId ((.send parentChatId child text u now, reply) :: h) s' := by
  unfold MessageWorld.step at hstep
  dsimp only at hstep
  split at hstep
  · rename_i m db hsend
    obtain ⟨rfl, rfl⟩ := Prod.mk.inj hstep
    by_cases hchild : child = childId
    · subst hchild
      exact hs.sent_row htick hsend
    · have hinbox : db.inbox childId = s.db.inbox childId ++ if child = childId then [m] else [] :=
        inbox_send hsend
      rw [if_neg hchild, List.append_nil] at hinbox
      refine (hs.otherRows hinbox).idle ?_ rfl
      rw [sentOf, if_neg (by rw [(ChildDb.send_ok hsend).1]; exact hchild)]
  · rename_i e db hsend
    obtain ⟨rfl, rfl⟩ := Prod.mk.inj hstep
    rw [ChildDb.send_error hsend]
    exact hs.idle rfl rfl

theorem Delivered.finish (hs : Delivered childId h s) {f : ChildDb.Finish} {u : BitVec 128} {now : ℚ}
    (hstep : MessageWorld.step C childId (.finish f u now) s = (reply, s')) :
    Delivered childId ((.finish f u now, reply) :: h) s' := by
  unfold MessageWorld.step at hstep
  dsimp only at hstep
  split at hstep
  · rename_i db hfinish
    obtain ⟨rfl, rfl⟩ := Prod.mk.inj hstep
    obtain ⟨-, -, -, hrows⟩ := ChildDb.finishTxn_ok (Txn.unitOfWork_ok.mp hfinish).1
    refine (hs.otherRows ?_).idle rfl rfl
    unfold ChildDb.inbox
    rw [hrows, List.filter_append]
    have hnil : ∀ c : Bool, (if c then
        [(⟨newId "cmsg" u, childId, .childToParent, f.resultText, now, none⟩ : ChildMessage)] else
          []).filter (ChildDb.toChild childId) = [] := by
      intro c
      cases c with
      | false => rfl
      | true => simp [ChildDb.toChild]
    rw [hnil, List.append_nil]
  · rename_i e db hfinish
    obtain ⟨rfl, rfl⟩ := Prod.mk.inj hstep
    rw [Txn.unitOfWork_error hfinish]
    exact hs.idle rfl rfl

theorem Delivered.stop (hs : Delivered childId h s) :
    Delivered childId ((.stop, .stopped) :: h) { s with worker := none } := by
  have hids : sentMessages childId ((.stop, .stopped) :: h) = sentMessages childId h :=
    sentMessages_of_none rfl h
  exact ⟨hids ▸ hs.sent, hs.sorted, hs.sound, fun w hw => (by cases hw), hids ▸ hs.boundaries, hs.last,
    fun w hw => (by cases hw), fun w route hw => (by cases hw), fun unread sent hdrain => (by cases hdrain)⟩

theorem Delivered.start (hs : Delivered childId h s) {system : String}
    (hstep : s.start system = (reply, s')) : Delivered childId ((.start system, reply) :: h) s' := by
  have hids : sentMessages childId ((.start system, .started) :: h) = sentMessages childId h :=
    sentMessages_of_none rfl h
  unfold MessageWorld.start at hstep
  split at hstep
  · obtain ⟨rfl, rfl⟩ := Prod.mk.inj hstep
    exact hs.idle rfl rfl
  · rename_i hworker hlast
    obtain ⟨rfl, rfl⟩ := Prod.mk.inj hstep
    have hnothing := hs.last
    rw [hlast] at hnothing
    refine ⟨hids ▸ hs.sent, hs.sorted, hs.sound, fun w hw => ?_, hids ▸ hs.boundaries, hs.last,
      fun w hw _ => ?_, fun w route hw hn => ?_, fun unread sent hdrain => (by cases hdrain)⟩
    · obtain rfl := Option.some.inj hw
      refine ⟨⟨List.nil_prefix, fun m hm hinbound => ?_⟩, hnothing⟩
      simp only [MessageWorld.openingMessages, List.mem_cons, List.not_mem_nil, or_false] at hm
      rcases hm with rfl | rfl <;> cases hinbound
    · obtain rfl := Option.some.inj hw
      rfl
    · obtain rfl := Option.some.inj hw
      cases hn
  · rename_i b hworker hlast
    split at hstep
    · obtain ⟨rfl, rfl⟩ := Prod.mk.inj hstep
      exact hs.idle rfl rfl
    · obtain ⟨rfl, rfl⟩ := Prod.mk.inj hstep
      have hacked := hs.last
      rw [hlast] at hacked
      obtain ⟨hheld, hrefresh⟩ :=
        (hs.boundaries b (List.mem_of_getLast? hlast)).refreshSystem system
      refine ⟨hids ▸ hs.sent, hs.sorted, hs.sound, fun w hw => ?_, hids ▸ hs.boundaries,
        hs.last, fun w hw hn => ?_, fun w route hw hn => ?_, fun unread sent hdrain => (by cases hdrain)⟩
      · obtain rfl := Option.some.inj hw
        rw [hids]
        refine ⟨hheld, ?_⟩
        show _ ⊆ inboundIds _
        rw [inboundIds, hrefresh]
        exact hacked
      · obtain rfl := Option.some.inj hw
        cases hn
      · obtain rfl := Option.some.inj hw
        cases hn

/-- What is sent and known by its id is in the transcript. -/
theorem Delivered.mem_of_id (hs : Delivered childId h s) {ms : List TranscriptEntry}
    (hms : HoldsPrefix (sentMessages childId h) ms) {m : TranscriptEntry} (hm : m ∈ sentMessages childId h)
    (hid : m.inboundId ∈ inboundIds ms) : m ∈ fromParent ms := by
  obtain ⟨m', hm', heq⟩ := List.mem_map.mp hid
  obtain rfl := List.inj_on_of_nodup_map hs.nodup (hms.1.subset hm') hm heq
  exact hm'

/-- **A read keeps the transcript a prefix** of what was sent. -/
theorem Delivered.prepared (hs : Delivered childId h s) {ms : List TranscriptEntry}
    (hheld : HoldsPrefix (sentMessages childId h) ms)
    (hacked : s.db.acknowledgedIds childId ⊆ inboundIds ms) :
    HoldsPrefix (sentMessages childId h) (prepareMessages ms (s.db.drainMessages childId)) := by
  have hsub : ∀ m ∈ s.db.drainMessages childId, m ∈ s.db.inbox childId := by
    intro m hm
    have hm := List.mem_of_mem_take hm
    rw [unread_eq hs.sorted] at hm
    exact List.mem_of_mem_filter hm
  have hentry : ∀ m ∈ prepareMessages ms (s.db.drainMessages childId),
      m ∈ ms ∨ m ∈ (s.db.drainMessages childId).map ChildMessage.entry :=
    fun m hm => mem_prepareMessages (fun c hc => hs.sound c (hsub c hc)) hm
  constructor
  · refine Redelivery.isPrefix_of_map (f := (·.inboundId)) ?_ (fun m hm => ?_) hs.nodup
    · have hread := inboundIds_drain hs.sorted hs.sound ms
      rw [inboundIds] at hread
      rw [hread, hs.inboxIds]
      exact Redelivery.read_isPrefix hheld.ids hacked hs.nodup 20
    · obtain ⟨hm, hinbound⟩ := List.mem_filter.mp hm
      rcases hentry m hm with hm | hm
      · exact hheld.1.subset (List.mem_filter.mpr ⟨hm, hinbound⟩)
      · obtain ⟨c, hc, rfl⟩ := List.mem_map.mp hm
        rw [← hs.sent]
        exact List.mem_map_of_mem (hsub c hc)
  · intro m hm hinbound
    rcases hentry m hm with hm | hm
    · exact hheld.2 m hm hinbound
    · obtain ⟨c, -, rfl⟩ := List.mem_map.mp hm
      rfl

theorem Delivered.drain (hs : Delivered childId h s) {w : MessageWorker} (hw : s.worker = some w) :
    Delivered childId ((.drain, .drained ((s.db.unread childId).map (·.messageId))) :: h)
      { s with worker := some ⟨.drained, prepareMessages w.messages (s.db.drainMessages childId)⟩ } := by
  have hids : sentMessages childId ((.drain, .drained ((s.db.unread childId).map (·.messageId))) :: h) =
      sentMessages childId h := sentMessages_of_none rfl h
  have hread := inboundIds_drain hs.sorted hs.sound w.messages
  obtain ⟨hheld, hacked⟩ := hs.worker w hw
  have hprepared := hs.prepared hheld hacked
  refine ⟨hids ▸ hs.sent, hs.sorted, hs.sound, fun x hx => ?_, hids ▸ hs.boundaries, hs.last,
    fun x hx hn => ?_, fun x route hx hn => ?_, fun unread sent hdrain => ?_⟩
  · obtain rfl := Option.some.inj hx
    refine ⟨hids ▸ hprepared, ?_⟩
    rw [hread]
    exact fun id hid => Redelivery.subset_read _ _ _ _ (hacked hid)
  · obtain rfl := Option.some.inj hx
    cases hn
  · obtain rfl := Option.some.inj hx
    cases hn
  · obtain ⟨rfl, rfl⟩ := Prod.mk.inj (Option.some.inj hdrain)
    refine ⟨_, rfl, .inl rfl, fun m hm hwindow => hs.mem_of_id hprepared hm ?_⟩
    rw [hread]
    rw [map_unread hs.sorted] at hwindow
    exact Redelivery.mem_read hacked (hs.inboxIds ▸ List.mem_map_of_mem hm) hwindow

/-- The boundary of a worker holds what its transcript holds. -/
theorem boundary_messages {w : MessageWorker} {b : MessageBoundary} {node : WorkerNode}
    (hb : w.boundary = some (b, node)) :
    (b.messages = w.messages ∨ w.node = .init ∧ b.messages = []) ∧ node ≠ .init ∧
      ((∃ route, node = .acknowledging route) → b.messages = w.messages) := by
  obtain ⟨node', ms⟩ := w
  unfold MessageWorker.boundary at hb
  cases node' with
  | init =>
      obtain ⟨rfl, rfl⟩ := Prod.mk.inj (Option.some.inj hb)
      exact ⟨.inr ⟨rfl, rfl⟩, by decide, fun ⟨_, h⟩ => (by cases h)⟩
  | «at» route =>
      cases route with
      | modelStep => cases hb
      | tools => cases hb
      | finalize =>
          obtain ⟨rfl, rfl⟩ := Prod.mk.inj (Option.some.inj hb)
          exact ⟨.inl rfl, by decide, fun _ => rfl⟩
  | drained => cases hb
  | acknowledging route => cases hb
  | ended => cases hb
  | _ =>
      obtain ⟨rfl, rfl⟩ := Prod.mk.inj (Option.some.inj hb)
      exact ⟨.inl rfl, by simp, fun _ => rfl⟩

theorem Delivered.commit (hs : Delivered childId h s) {w : MessageWorker} (hw : s.worker = some w)
    {b : MessageBoundary} {node : WorkerNode} (hb : w.boundary = some (b, node)) :
    Delivered childId ((.commit, .committed b) :: h)
      { s with boundaries := s.boundaries ++ [b], worker := some ⟨node, w.messages⟩ } := by
  have hids : sentMessages childId ((.commit, .committed b) :: h) = sentMessages childId h :=
    sentMessages_of_none rfl h
  obtain ⟨hmessages, hinit, hack⟩ := boundary_messages hb
  obtain ⟨hheld, hacked⟩ := hs.worker w hw
  have hsame : fromParent b.messages = fromParent w.messages := by
    rcases hmessages with heq | ⟨hn, heq⟩
    · rw [heq]
    · rw [heq, hs.init w hw hn]
      rfl
  have hboundary : HoldsPrefix (sentMessages childId h) b.messages := by
    refine ⟨hsame ▸ hheld.1, fun m hm hinbound => ?_⟩
    rcases hmessages with heq | ⟨-, heq⟩
    · exact hheld.2 m (heq ▸ hm) hinbound
    · rw [heq] at hm
      cases hm
  refine ⟨hids ▸ hs.sent, hs.sorted, hs.sound, fun x hx => ?_, fun b' hb' => ?_, ?_, fun x hx hn => ?_,
    fun x route hx hn => ?_, fun unread sent hdrain => (by cases hdrain)⟩
  · obtain rfl := Option.some.inj hx
    rw [hids]
    exact ⟨hheld, hacked⟩
  · rw [hids]
    rcases List.mem_append.mp hb' with hb' | hb'
    · exact hs.boundaries b' hb'
    · obtain rfl := List.mem_singleton.mp hb'
      exact hboundary
  · rw [List.getLast?_concat]
    show _ ⊆ inboundIds b.messages
    rw [inboundIds, hsame]
    exact hacked
  · obtain rfl := Option.some.inj hx
    exact absurd hn hinit
  · obtain rfl := Option.some.inj hx
    exact ⟨b, List.getLast?_concat, hack ⟨route, hn⟩⟩

theorem Delivered.acknowledge (hs : Delivered childId h s) {w : MessageWorker}
    (hw : s.worker = some w) {route : WorkerRoute} (hnode : w.node = .acknowledging route) (now : ℚ) :
    Delivered childId ((.acknowledge now, .nothing) :: h)
      { s with
        db := s.db.ackMessages childId (inboundIds w.messages) now
        worker := some ⟨.at route, w.messages⟩ } := by
  obtain ⟨hheld, hacked⟩ := hs.worker w hw
  obtain ⟨b, hlast, hb⟩ := hs.acknowledging w route hw hnode
  have hstrip : ∀ id ∈ inboundIds w.messages, strip id = id := by
    intro id hid
    have hsent := hheld.ids.subset hid
    rw [← hs.inboxIds] at hsent
    obtain ⟨m, hm, rfl⟩ := List.mem_map.mp hsent
    exact (hs.sound m hm).1
  have hacked' : (s.db.ackMessages childId (inboundIds w.messages) now).acknowledgedIds childId ⊆
      inboundIds w.messages := by
    refine List.Subset.trans (acknowledgedIds_ackMessages hstrip now) fun m hm => ?_
    exact (List.mem_append.mp hm).elim (fun hm => hacked hm) id
  refine Delivered.idle ?_ rfl rfl
  refine ⟨?_, ?_, ?_, fun x hx => ?_, hs.boundaries, ?_, fun x hx hn => ?_, fun x route' hx hn => ?_,
    fun unread sent hdrain => ?_⟩
  · rw [inbox_ackMessages, List.map_map, ← hs.sent]
    exact List.map_congr_left fun m _ => (ackRow_fields childId _ now m).1
  · rw [inbox_ackMessages, List.pairwise_map]
    refine hs.sorted.imp fun {a c} hlt => ?_
    rw [(ackRow_fields childId _ now a).2.1, (ackRow_fields childId _ now c).2.1]
    exact hlt
  · intro m' hm'
    rw [inbox_ackMessages] at hm'
    obtain ⟨m, hm, rfl⟩ := List.mem_map.mp hm'
    exact (ackRow_fields childId _ now m).2.2.1.mpr (hs.sound m hm)
  · obtain rfl := Option.some.inj hx
    exact ⟨hheld, hacked'⟩
  · rw [hlast]
    show _ ⊆ inboundIds b.messages
    rw [hb]
    exact hacked'
  · obtain rfl := Option.some.inj hx
    cases hn
  · obtain rfl := Option.some.inj hx
    cases hn
  · obtain ⟨x, hx, hn, -⟩ := hs.reading unread sent hdrain
    obtain rfl := Option.some.inj (hw.symm.trans hx)
    rw [hnode] at hn
    rcases hn with hn | ⟨route, hn⟩ <;> cases hn

theorem Delivered.workerStep (hs : Delivered childId h s) {w : MessageWorker} (hw : s.worker = some w)
    (hstep : MessageWorld.workerStep C childId l w s = (reply, s')) :
    Delivered childId ((l, reply) :: h) s' := by
  obtain ⟨hheld, hacked⟩ := hs.worker w hw
  have hidle : Delivered childId ((l, .nothing) :: h) s := hs.idle (sentOf_nothing l) rfl
  unfold MessageWorld.workerStep at hstep
  split at hstep
  · obtain ⟨rfl, rfl⟩ := Prod.mk.inj hstep
    exact hs.drain hw
  · rename_i hnode
    obtain ⟨rfl, rfl⟩ := Prod.mk.inj hstep
    refine hs.transcript hw hheld (List.Subset.refl _) (by simp) (by simp) fun hn => ?_
    rw [hnode] at hn
    rcases hn with hn | ⟨_, hn⟩ <;> cases hn
  · obtain ⟨rfl, rfl⟩ := Prod.mk.inj hstep
    refine hs.transcript hw (hheld.append_plain _) ?_ (by simp) (by simp) fun _ => ⟨_, rfl⟩
    rw [fromParent_append]
    exact List.subset_append_left _ _
  · rename_i results compact route hnode
    obtain ⟨rfl, rfl⟩ := Prod.mk.inj hstep
    refine hs.transcript hw ?_ ?_ (by simp) (by simp) fun hn => ?_
    · cases compact with
      | false => exact hheld.append_plain _
      | true => exact (hheld.append_plain _).compress
    · cases compact with
      | false =>
          show _ ⊆ fromParent (w.messages ++ results.map TranscriptEntry.plain)
          rw [fromParent_append]
          exact List.subset_append_left _ _
      | true =>
          show _ ⊆ fromParent (C.compress (w.messages ++ results.map TranscriptEntry.plain))
          rw [C.keeps, fromParent_append]
          exact List.subset_append_left _ _
    · rw [hnode] at hn
      rcases hn with hn | ⟨_, hn⟩ <;> cases hn
  · rename_i now route hnode
    obtain ⟨rfl, rfl⟩ := Prod.mk.inj hstep
    exact hs.acknowledge hw hnode now
  · split at hstep
    · obtain ⟨rfl, rfl⟩ := Prod.mk.inj hstep
      exact hidle
    · rename_i b node hb
      obtain ⟨rfl, rfl⟩ := Prod.mk.inj hstep
      exact hs.commit hw hb
  · obtain ⟨rfl, rfl⟩ := Prod.mk.inj hstep
    exact hidle

/-- A step that commits commits the boundary of the worker. -/
theorem step_committed {b : MessageBoundary}
    (hstep : MessageWorld.step C childId l s = (.committed b, s')) :
    ∃ w node, s.worker = some w ∧ w.boundary = some (b, node) := by
  have hworker : (s.worker.elim (.nothing, s) fun w => MessageWorld.workerStep C childId l w s) =
      (.committed b, s') → ∃ w node, s.worker = some w ∧ w.boundary = some (b, node) := by
    intro hstep
    cases hw : s.worker with
    | none =>
        rw [hw] at hstep
        cases (Prod.mk.inj hstep).1
    | some w =>
        rw [hw, Option.elim_some] at hstep
        unfold MessageWorld.workerStep at hstep
        split at hstep
        case h_6 =>
            split at hstep
            · cases (Prod.mk.inj hstep).1
            · rename_i b' node hb
              cases (Prod.mk.inj hstep).1
              exact ⟨w, node, rfl, hb⟩
        all_goals cases (Prod.mk.inj hstep).1
  unfold MessageWorld.step at hstep
  split at hstep
  · split at hstep <;> cases (Prod.mk.inj hstep).1
  · unfold MessageWorld.start at hstep
    split at hstep
    · cases (Prod.mk.inj hstep).1
    · cases (Prod.mk.inj hstep).1
    · split at hstep <;> cases (Prod.mk.inj hstep).1
  · cases (Prod.mk.inj hstep).1
  · split at hstep <;> cases (Prod.mk.inj hstep).1
  · exact hworker hstep

/-- A worker that has done a model step commits its transcript. -/
theorem commit_stepped (C : MessageCompaction) (childId : String) (db : ChildDb) {w : MessageWorker}
    {route : WorkerRoute} (hw : s.worker = some w) (hnode : w.node = .stepped route) :
    (childMessages C childId db).step .commit s = (.committed ⟨w.messages, some route⟩,
      { s with
        boundaries := s.boundaries ++ [⟨w.messages, some route⟩]
        worker := some ⟨.acknowledging route, w.messages⟩ }) := by
  show s.worker.elim _ _ = _
  rw [hw, Option.elim_some, MessageWorld.workerStep, MessageWorker.boundary, hnode]

/-- **Every step delivers.** -/
theorem Delivered.step (hs : Delivered childId h s) (htick : Ticking h s l)
    (hstep : MessageWorld.step C childId l s = (reply, s')) : Delivered childId ((l, reply) :: h) s' := by
  have hworker : (s.worker.elim (.nothing, s) fun w => MessageWorld.workerStep C childId l w s) =
      (reply, s') → Delivered childId ((l, reply) :: h) s' := by
    intro hstep
    cases hw : s.worker with
    | none =>
        rw [hw] at hstep
        obtain ⟨rfl, rfl⟩ := Prod.mk.inj hstep
        exact hs.idle (sentOf_nothing l) rfl
    | some w =>
        rw [hw] at hstep
        exact hs.workerStep hw hstep
  cases l with
  | send parentChatId child text u now => exact hs.send htick hstep
  | start system => exact hs.start hstep
  | stop =>
      obtain ⟨rfl, rfl⟩ := Prod.mk.inj hstep
      exact hs.stop
  | finish f u now => exact hs.finish hstep
  | _ => exact hworker hstep

/-- **Every run delivers.** -/
theorem delivered {db : ChildDb} (hrun : (childMessages C childId db).RunWhere Ticking h s) :
    Delivered childId h s := by
  refine hrun.invariant (I := Delivered childId) ?_ fun h s l reply s' _ hs htick hstep => ?_
  · exact ⟨rfl, List.Pairwise.nil, fun m hm => (by cases hm), fun w hw => (by cases hw),
      fun b hb => (by cases hb), List.Subset.refl _, fun w hw => (by cases hw),
      fun w route hw => (by cases hw), fun unread sent hdrain => (by cases hdrain)⟩
  · exact hs.step htick hstep

end Delivery

/-- **A parent's messages reach the child once and in order.**  With a clock that increases, the messages
of the parent in a boundary are the first ones that were sent, each once and with its text; what is
acknowledged is in a boundary; and the boundary of a model step holds every message sent before the step
has read them, up to twenty that were unread. -/
theorem messages_reach_once (C : MessageCompaction) (childId : String) (db : ChildDb)
    {h : MessageHistory} {s : MessageWorld}
    (hrun : (childMessages C childId db).RunWhere Ticking h s) :
    (∀ b ∈ s.boundaries, (inboundIds b.messages).Nodup ∧
        fromParent b.messages <+: sentMessages childId h) ∧
      (∀ id ∈ s.db.acknowledgedIds childId, ∃ m ∈ sentMessages childId h, m.inboundId = id ∧
        ∃ b ∈ s.boundaries, m ∈ b.messages) ∧
      ∀ l b s' unread sent, (childMessages C childId db).step l s = (.committed b, s') →
        stepDrain childId h = some (unread, sent) →
          ∀ m ∈ sent, m.inboundId ∉ unread.drop 20 → m ∈ b.messages := by
  have hs := delivered hrun
  refine ⟨fun b hb => ?_, fun id hid => ?_, fun l b s' unread sent hstep hdrain m hm hwindow => ?_⟩
  · have hheld := hs.boundaries b hb
    exact ⟨hs.nodup.sublist hheld.ids.sublist, hheld.1⟩
  · have hlast := hs.last hid
    cases hb : s.boundaries.getLast? with
    | none =>
        rw [hb] at hlast
        cases hlast
    | some b =>
        rw [hb] at hlast
        have hmem := List.mem_of_getLast? hb
        obtain ⟨m, hm, hmid⟩ := List.mem_map.mp hlast
        exact ⟨m, (hs.boundaries b hmem).1.subset hm, hmid, b, hmem, List.mem_of_mem_filter hm⟩
  · obtain ⟨w, hw, hnode, hread⟩ := hs.reading unread sent hdrain
    obtain ⟨w', node, hw', hb⟩ := step_committed hstep
    obtain rfl := Option.some.inj (hw.symm.trans hw')
    rcases (boundary_messages hb).1 with heq | ⟨hinit, -⟩
    · exact heq ▸ List.mem_of_mem_filter (hread m hm hwindow)
    · rw [hinit] at hnode
      rcases hnode with hnode | ⟨_, hnode⟩ <;> cases hnode

/-! ## 8.  One message -/

/-- A compaction that drops nothing. -/
def keepAll : MessageCompaction := ⟨id, fun _ => rfl⟩

/-- A child that runs. -/
def runningChild : ChildRow :=
  ⟨"a", "ac", "p", 1, "a", "t", "", .running, "", "", "", "", ChildDb.emptyUsage, 1, .complete, "", "",
    "", ""⟩

/-- A database with one child. -/
def oneChildDb : ChildDb := ⟨noChats, ⟨[runningChild], List.nodup_singleton _⟩, Table.empty⟩

/-- The steps of a run up to its first model step. -/
def firstModelStep : List MessageStep :=
  [.start "s", .commit, .commit, .drain, .model [] .finalize]

/-- A message is sent before the first model step, which reads it. -/
def messageRun : MessageHistory × MessageWorld :=
  (childMessages keepAll "a" oneChildDb).exec ([], (childMessages keepAll "a" oneChildDb).start)
    (.send "p" "a" "m" 0 1 :: firstModelStep)

/-- The message is in the boundary of that step. -/
theorem messages_reach_once_message : ∃ b s' id,
    (childMessages keepAll "a" oneChildDb).step .commit messageRun.2 = (.committed b, s') ∧
      ⟨"user", "[PARENT MESSAGE]\nm", id⟩ ∈ b.messages := by
  have hrun : (childMessages keepAll "a" oneChildDb).RunWhere Ticking messageRun.1 messageRun.2 := by
    refine Machine.RunWhere.exec (.step .start ?_ rfl) firstModelStep ?_
    · intro m hm
      cases hm
    · intro l hl h s
      simp only [firstModelStep, List.mem_cons, List.not_mem_nil, or_false] at hl
      rcases hl with rfl | rfl | rfl | rfl | rfl <;> trivial
  have hread : stepDrain "a" messageRun.1 =
        some ([newId "cmsg" 0], [⟨"user", "[PARENT MESSAGE]\nm", newId "cmsg" 0⟩]) ∧
      messageRun.2.worker.any (fun w => w.node == .stepped .finalize) := by
    decide +kernel
  obtain ⟨hdrain, hworker⟩ := hread
  obtain ⟨w, hw, hnode⟩ := (Option.any_eq_true _ _).mp hworker
  have hstep := commit_stepped keepAll "a" oneChildDb hw (eq_of_beq hnode)
  exact ⟨_, _, _, hstep, (messages_reach_once keepAll "a" oneChildDb hrun).2.2 _ _ _ _ _ hstep
    hdrain _ (List.mem_singleton_self _) (by simp)⟩

end SessionCatalog
end VariantOne
