import Mathlib.Data.List.Chain
import Mathlib.Tactic.Linarith
import Mathlib.Tactic.Ring
import VariantOne.ChatSessions.Conversation
import VariantOne.Lib.Txn

/-!
# Conversation order

The nodes of a chat that is only appended to form a chain, whose order is the order of the
messages (`Chained`, in every state: `chained_of_run`).  The topological reader lists them
in this order whatever their time stamps are (`Chained.contextSources`).

The other readers sort by time stamp and, where two are equal, by the random identifier of
the node.  They list the chain as long as every append is in order (`InOrder`): each of its
nodes sorts after the node before it, and the first after the newest node of the chat.  A
cursor then covers a prefix of every later history.  `chat_in_conversation_order` puts this
together for every run, and `context_out_of_order` is a run with a clock that goes back.

Within an append, two stamps are equal only where doubles are as far apart as the offsets of
the turns.  Below 2^32 they are not: there the stamps of an append increase
(`pairwise_newNodes`), and what remains of the condition is where the append starts
(`inOrder_of_clock`).
-/

namespace VariantOne
namespace ChatSessions

variable {P : Interpreter} {H : Host}

/-! ## 1.  What an append inserts -/

/-- The nodes of a turn. -/
def turnNodes (now : ℚ) (turnNumber : Nat) (t : TurnMessages) (ids : TurnIds) :
    List ConversationNode :=
  (t.user.map fun m => (⟨m, newId "node" ids.user, newId "turn" ids.turn,
    turnTime now turnNumber⟩ : ConversationNode)).toList ++
  (t.assistant.map fun m => (⟨m, newId "node" ids.assistant, newId "turn" ids.turn,
    replyTime now turnNumber⟩ : ConversationNode)).toList

/-- The nodes of the turns from a position on. -/
def newNodes (now : ℚ) (ids : Nat → TurnIds) : Nat → List TurnMessages → List ConversationNode
  | _, [] => []
  | turnNumber, t :: ts =>
      turnNodes now turnNumber t (ids turnNumber) ++ newNodes now ids (turnNumber + 1) ts

theorem messages_turnNodes (now : ℚ) (turnNumber : Nat) (t : TurnMessages) (ids : TurnIds) :
    (turnNodes now turnNumber t ids).map (·.toChatMessage) = t.messages := by
  obtain ⟨user, assistant⟩ := t
  cases user <;> cases assistant <;> rfl

theorem messages_newNodes (now : ℚ) (ids : Nat → TurnIds) (turnNumber : Nat)
    (ts : List TurnMessages) :
    (newNodes now ids turnNumber ts).map (·.toChatMessage) = ts.flatMap TurnMessages.messages := by
  induction ts generalizing turnNumber with
  | nil => rfl
  | cons t ts ih => rw [newNodes, List.map_append, messages_turnNodes, ih, List.flatMap_cons]

theorem messages_singleTurn (m : ChatMessage) : (singleTurn m).messages = [m] := by
  unfold singleTurn
  split <;> rfl

/-- The turns read the messages. -/
theorem messages_turnsOf (clean : List ChatMessage) :
    (turnsOf clean).flatMap TurnMessages.messages = clean := by
  induction clean using turnsOf.induct with
  | case1 => rfl
  | case2 m => rw [turnsOf, List.flatMap_singleton, messages_singleTurn]
  | case3 m following rest h ih => rw [turnsOf, if_pos h, List.flatMap_cons, ih]; rfl
  | case4 m following rest h ih =>
      rw [turnsOf, if_neg h, List.flatMap_cons, ih, messages_singleTurn]
      rfl

theorem newId_ne_empty (kind : String) (u : BitVec 128) : newId kind u ≠ "" := by
  intro h
  have hlist := congrArg String.toList h
  rw [newId, String.toList_append, String.toList_append] at hlist
  simp at hlist

/-! ## 2.  The nodes are a chain -/

/-- The identifiers of the nodes, in the order of insertion. -/
def Conversation.nodeIds (s : Conversation) : List String := s.nodes.rows.map (·.nodeId)

/-- The graph is the chain of the nodes, and the head is the last of them. -/
structure Chained (s : Conversation) : Prop where
  edges : s.edges = Dag.chain s.nodeIds
  head : s.head? = s.nodeIds.getLast?

theorem nodup_nodeIds (s : Conversation) : s.nodeIds.Nodup := s.nodes.unique

/-- The state after nodes have been appended. -/
structure Extended (s s' : Conversation) (ns : List ConversationNode) : Prop where
  chained : Chained s'
  rows : s'.nodes.rows = s.nodes.rows ++ ns
  conversationId : s'.conversationId = s.conversationId
  branchId : s'.branchId = s.branchId
  fits : ∀ n ∈ ns, n.fits = true

theorem Extended.refl {s : Conversation} (hs : Chained s) : Extended s s [] :=
  ⟨hs, (List.append_nil _).symm, rfl, rfl, fun n hn => absurd hn (by simp)⟩

theorem Extended.trans {s s' s'' : Conversation} {ns ns' : List ConversationNode}
    (h : Extended s s' ns) (h' : Extended s' s'' ns') : Extended s s'' (ns ++ ns') := by
  refine ⟨h'.chained, ?_, h'.conversationId.trans h.conversationId, h'.branchId.trans h.branchId,
    fun n hn => ?_⟩
  · rw [h'.rows, h.rows, List.append_assoc]
  · rcases List.mem_append.mp hn with hn | hn
    · exact h.fits n hn
    · exact h'.fits n hn

theorem Chained.insertNode {s s' : Conversation} {m : ChatMessage} {nodeId turnId : String}
    {createdAt : ℚ} (hs : Chained s) (hid : nodeId ≠ "")
    (h : insertNode m nodeId turnId createdAt s = .ok s') :
    Extended s s' [⟨m, nodeId, turnId, createdAt⟩] := by
  unfold ChatSessions.insertNode at h
  split at h
  · exact absurd h (by simp)
  rename_i hfits
  split at h
  · exact absurd h (by simp)
  rename_i nodes hinsert
  obtain rfl := Except.ok.inj h
  have hrows := (Table.insert?_eq_some hinsert).2
  have hids : (nodes.rows.map fun n => n.nodeId) = s.nodeIds ++ [nodeId] := by
    rw [hrows, List.map_append]
    rfl
  refine ⟨⟨?_, ?_⟩, hrows, rfl, rfl, fun n hn => ?_⟩
  · show s.edges ++ [(s.head?, nodeId)] = Dag.chain (nodes.rows.map fun n => n.nodeId)
    rw [hids, Dag.chain_append_singleton, hs.edges, hs.head]
  · show (if nodeId = "" then none else some nodeId) = (nodes.rows.map fun n => n.nodeId).getLast?
    rw [hids, if_neg hid, List.getLast?_concat]
  · obtain rfl := List.mem_singleton.mp hn
    simpa using hfits

theorem Chained.insertMessage {s s' : Conversation} {m : Option ChatMessage}
    {nodeId turnId : String} {createdAt : ℚ} (hs : Chained s) (hid : nodeId ≠ "")
    (h : insertMessage m nodeId turnId createdAt s = .ok s') :
    Extended s s' (m.map fun m => (⟨m, nodeId, turnId, createdAt⟩ : ConversationNode)).toList := by
  cases m with
  | none =>
      obtain rfl := Except.ok.inj h
      exact .refl hs
  | some m => exact hs.insertNode hid h

theorem Chained.appendTurn {s s' : Conversation} {now : ℚ} {turnNumber : Nat} {t : TurnMessages}
    {ids : TurnIds} (hs : Chained s) (h : appendTurn P now turnNumber t ids s = .ok s') :
    Extended s s' (turnNodes now turnNumber t ids) := by
  simp only [ChatSessions.appendTurn, except_bind_eq_ok] at h
  obtain ⟨s₁, huser, s₂, hassistant, h⟩ := h
  split at h
  · exact absurd h (by simp)
  obtain rfl := Except.ok.inj h
  have h₁ := hs.insertMessage (newId_ne_empty _ _) huser
  have h₂ := h₁.chained.insertMessage (newId_ne_empty _ _) hassistant
  have h₁₂ := h₁.trans h₂
  exact ⟨⟨h₁₂.chained.edges, h₁₂.chained.head⟩, h₁₂.rows, h₁₂.conversationId, h₁₂.branchId, h₁₂.fits⟩

theorem Chained.appendTurns {s s' : Conversation} {now : ℚ} {ids : Nat → TurnIds} {turnNumber : Nat}
    {ts : List TurnMessages} (hs : Chained s)
    (h : appendTurns P now ids turnNumber ts s = .ok s') :
    Extended s s' (newNodes now ids turnNumber ts) := by
  induction ts generalizing turnNumber s with
  | nil =>
      obtain rfl := Except.ok.inj h
      exact .refl hs
  | cons t ts ih =>
      rw [ChatSessions.appendTurns, except_bind_eq_ok] at h
      obtain ⟨s₁, hturn, hrest⟩ := h
      have h₁ := hs.appendTurn hturn
      exact h₁.trans (ih h₁.chained hrest)

/-- The nodes a call appends. -/
def AppendCall.newNodes (call : AppendCall) : List ConversationNode :=
  ChatSessions.newNodes call.now call.ids 1 (turnsOf call.clean)

/-- An append stores all of its messages, or changes nothing. -/
theorem appendMessages_cases {call : AppendCall} {s s' : Conversation} {reply : AppendReply}
    (hs : Chained s) (h : appendMessages P call.now call.clean call.ids s = (reply, s')) :
    (s' = s ∧ ∀ head, reply ≠ .appended head) ∨
      (∃ head, reply = .appended head) ∧ s.acknowledges P call.clean = false ∧
        Extended s s' call.newNodes := by
  unfold appendMessages at h
  split at h
  · obtain ⟨rfl, rfl⟩ := Prod.mk.inj h
    exact .inl ⟨rfl, by simp⟩
  split at h
  · obtain ⟨rfl, rfl⟩ := Prod.mk.inj h
    exact .inl ⟨rfl, by simp⟩
  rename_i hack
  split at h
  · obtain ⟨rfl, rfl⟩ := Prod.mk.inj h
    exact .inl ⟨rfl, by simp⟩
  · rename_i s₁ hturns
    obtain ⟨rfl, rfl⟩ := Prod.mk.inj h
    have h₁ := hs.appendTurns hturns
    exact .inr ⟨⟨_, rfl⟩, by simpa using hack,
      ⟨⟨h₁.chained.edges, h₁.chained.head⟩, h₁.rows, h₁.conversationId, h₁.branchId, h₁.fits⟩⟩

/-! ## 3.  Time stamps -/

theorem ConversationNode.byTime_trans {m n k : ConversationNode} (h : m.byTime n)
    (h' : n.byTime k) : m.byTime k := by
  rcases h with h | ⟨h, hid⟩ <;> rcases h' with h' | ⟨h', hid'⟩
  · exact .inl (h.trans h')
  · exact .inl (h' ▸ h)
  · exact .inl (h ▸ h')
  · exact .inr ⟨h.trans h', hid.trans hid'⟩

/-- Other nodes are not by time in both orders. -/
theorem ConversationNode.not_byTime {m n : ConversationNode} (h : m.byTime n)
    (hne : m.nodeId ≠ n.nodeId) : ¬ n.byTime m := by
  intro h'
  rcases h with h | ⟨h, hid⟩ <;> rcases h' with h' | ⟨h', hid'⟩
  · exact lt_asymm h h'
  · exact absurd h'.symm (ne_of_lt h)
  · exact absurd h.symm (ne_of_lt h')
  · exact hne (le_antisymm hid hid')

instance : Trans ConversationNode.byTime ConversationNode.byTime ConversationNode.byTime :=
  ⟨ConversationNode.byTime_trans⟩

/-- **An append in order**: where it stores its messages, each of its nodes is after the one before it, and
the first is after the newest node of the chat. -/
def InOrder (P : Interpreter) (s : Conversation) (call : AppendCall) : Prop :=
  s.acknowledges P call.clean = false → (∀ m ∈ call.clean, m.fits = true) →
    call.newNodes.IsChain ConversationNode.byTime ∧
      ∀ newest ∈ s.nodes.rows.getLast?, ∀ first ∈ call.newNodes.head?, newest.byTime first

/-- The nodes are in order of their time stamps. -/
def Sorted (s : Conversation) : Prop := s.nodes.rows.Pairwise ConversationNode.byTime

theorem Sorted.append {s s' : Conversation} {call : AppendCall} (hs : Sorted s)
    (hext : Extended s s' call.newNodes) (hack : s.acknowledges P call.clean = false)
    (horder : InOrder P s call) : Sorted s' := by
  have hfits : ∀ m ∈ call.clean, m.fits = true := by
    intro m hm
    rw [← messages_turnsOf call.clean,
      ← messages_newNodes call.now call.ids 1 (turnsOf call.clean)] at hm
    obtain ⟨n, hn, rfl⟩ := List.mem_map.mp hm
    exact hext.fits n hn
  obtain ⟨hnew, hacross⟩ := horder hack hfits
  show s'.nodes.rows.Pairwise _
  rw [hext.rows]
  exact (List.isChain_append.mpr ⟨hs.isChain, hnew, hacross⟩).pairwise

/-! ### Clocks below 2^32 -/

/-- A result below 2^32 is off by 2^-22 at most. -/
theorem round_near {x : ℚ} (hx : |x| < 2 ^ 32) : |Binary64.round x - x| ≤ 1 / 2 ^ 22 := by
  have herror := Binary64.abs_round_sub_le_of_lt (x := x) (n := -21) (by norm_num)
    (by norm_num at hx ⊢; exact hx)
  norm_num at herror ⊢
  exact herror

section Clock

variable {now : ℚ} {turnNumber : Nat}

/-- The time stamp of a turn is near the exact one. -/
theorem turnTime_near (hnow : 0 ≤ now) (hend : now + turnNumber * turnStep + 1 ≤ 2 ^ 32) :
    |turnTime now turnNumber - (now + turnNumber * turnStep)| ≤ 2 / 2 ^ 22 := by
  have hoffset : 0 ≤ turnNumber * turnStep := mul_nonneg (Nat.cast_nonneg _) (by norm_num [turnStep])
  obtain ⟨hmulLow, hmulHigh⟩ := abs_le.mp (round_near (x := turnNumber * turnStep) (by
    rw [abs_of_nonneg hoffset]
    linarith))
  obtain ⟨haddLow, haddHigh⟩ := abs_le.mp (round_near
    (x := now + Binary64.round (turnNumber * turnStep)) (by
      rw [abs_lt]
      constructor <;> linarith))
  rw [turnTime, Binary64.add, Binary64.mul, abs_le]
  constructor <;> linarith

/-- The time stamp of a reply is near the exact one. -/
theorem replyTime_near (hnow : 0 ≤ now) (hend : now + turnNumber * turnStep + 1 ≤ 2 ^ 32) :
    |replyTime now turnNumber - (turnTime now turnNumber + replyStep)| ≤ 1 / 2 ^ 22 := by
  have hoffset : 0 ≤ turnNumber * turnStep := mul_nonneg (Nat.cast_nonneg _) (by norm_num [turnStep])
  obtain ⟨hlow, hhigh⟩ := abs_le.mp (turnTime_near hnow hend)
  have hreply : 0 ≤ replyStep ∧ replyStep ≤ 1 / 2 := by norm_num [replyStep]
  refine round_near ?_
  rw [abs_lt]
  constructor <;> linarith

/-- The reply of a turn is later than its user message, and earlier than the next turn. -/
theorem replyTime_between (hnow : 0 ≤ now) (hend : now + (turnNumber + 1) * turnStep + 1 ≤ 2 ^ 32) :
    turnTime now turnNumber < replyTime now turnNumber ∧
      replyTime now turnNumber < turnTime now (turnNumber + 1) := by
  have hstep : (5 : ℚ) / 2 ^ 22 + replyStep < turnStep ∧ (1 : ℚ) / 2 ^ 22 < replyStep := by
    norm_num [turnStep, replyStep]
  have hend' : now + turnNumber * turnStep + 1 ≤ 2 ^ 32 := by
    have : 0 ≤ turnStep := by norm_num [turnStep]
    linarith
  obtain ⟨hlow, hhigh⟩ := abs_le.mp (turnTime_near hnow hend')
  obtain ⟨hreplyLow, hreplyHigh⟩ := abs_le.mp (replyTime_near hnow hend')
  have hnext : now + (turnNumber + 1 : Nat) * turnStep + 1 ≤ 2 ^ 32 := by
    push_cast
    exact hend
  obtain ⟨hnextLow, hnextHigh⟩ := abs_le.mp (turnTime_near hnow hnext)
  push_cast at hnextLow hnextHigh
  constructor <;> linarith

end Clock

/-- The nodes of a turn stand between it and the next one. -/
theorem createdAt_turnNodes {now : ℚ} {turnNumber : Nat} {t : TurnMessages} {ids : TurnIds}
    (hnow : 0 ≤ now) (hend : now + (turnNumber + 1) * turnStep + 1 ≤ 2 ^ 32)
    {n : ConversationNode} (hn : n ∈ turnNodes now turnNumber t ids) :
    turnTime now turnNumber ≤ n.createdAt ∧ n.createdAt < turnTime now (turnNumber + 1) := by
  obtain ⟨hreply, hnext⟩ := replyTime_between hnow hend
  obtain ⟨user, assistant⟩ := t
  rcases List.mem_append.mp hn with hn | hn
  · obtain ⟨m, -, rfl⟩ := Option.map_eq_some_iff.mp (Option.mem_toList.mp hn)
    exact ⟨le_refl _, hreply.trans hnext⟩
  · obtain ⟨m, -, rfl⟩ := Option.map_eq_some_iff.mp (Option.mem_toList.mp hn)
    exact ⟨hreply.le, hnext⟩

/-- The reply of a turn is later than its user message. -/
theorem pairwise_turnNodes {now : ℚ} {turnNumber : Nat} (t : TurnMessages) (ids : TurnIds)
    (hnow : 0 ≤ now) (hend : now + (turnNumber + 1) * turnStep + 1 ≤ 2 ^ 32) :
    (turnNodes now turnNumber t ids).Pairwise fun m n => m.createdAt < n.createdAt := by
  obtain ⟨user, assistant⟩ := t
  have hreply := (replyTime_between hnow hend).1
  cases user <;> cases assistant <;> simp [turnNodes, hreply]

theorem le_createdAt_newNodes {now : ℚ} {ids : Nat → TurnIds} {turnNumber : Nat}
    {ts : List TurnMessages} (hnow : 0 ≤ now)
    (hend : now + (turnNumber + ts.length) * turnStep + 1 ≤ 2 ^ 32) {n : ConversationNode}
    (hn : n ∈ newNodes now ids turnNumber ts) : turnTime now turnNumber ≤ n.createdAt := by
  induction ts generalizing turnNumber with
  | nil => exact absurd hn (by simp [newNodes])
  | cons t ts ih =>
      have hstep : 0 ≤ ts.length * turnStep := mul_nonneg (Nat.cast_nonneg _) (by norm_num [turnStep])
      rw [List.length_cons] at hend
      push_cast at hend
      have hturn : now + (turnNumber + 1) * turnStep + 1 ≤ 2 ^ 32 := by linarith
      rcases List.mem_append.mp hn with hn | hn
      · exact (createdAt_turnNodes hnow hturn hn).1
      · obtain ⟨hreply, hnext⟩ := replyTime_between hnow hturn
        exact (hreply.trans hnext).le.trans (ih (by push_cast; linarith) hn)

/-- The time stamps of an append increase. -/
theorem pairwise_newNodes {now : ℚ} (ids : Nat → TurnIds) {turnNumber : Nat} {ts : List TurnMessages}
    (hnow : 0 ≤ now) (hend : now + (turnNumber + ts.length) * turnStep + 1 ≤ 2 ^ 32) :
    (newNodes now ids turnNumber ts).Pairwise fun m n => m.createdAt < n.createdAt := by
  induction ts generalizing turnNumber with
  | nil => exact List.Pairwise.nil
  | cons t ts ih =>
      have hstep : 0 ≤ ts.length * turnStep := mul_nonneg (Nat.cast_nonneg _) (by norm_num [turnStep])
      rw [List.length_cons] at hend
      push_cast at hend
      have hturn : now + (turnNumber + 1) * turnStep + 1 ≤ 2 ^ 32 := by linarith
      have hrest : now + ((turnNumber + 1 : Nat) + ts.length) * turnStep + 1 ≤ 2 ^ 32 := by
        push_cast
        linarith
      refine List.pairwise_append.mpr ⟨pairwise_turnNodes _ _ hnow hturn, ih hrest, fun m hm n hn => ?_⟩
      exact (createdAt_turnNodes hnow hturn hm).2.trans_le (le_createdAt_newNodes hnow hrest hn)

/-- With a clock below 2^32, an append is in order if its first node is after the newest one. -/
theorem inOrder_of_clock {s : Conversation} {call : AppendCall} (hnow : 0 ≤ call.now)
    (hend : call.now + (1 + (turnsOf call.clean).length) * turnStep + 1 ≤ 2 ^ 32)
    (hfirst : ∀ newest ∈ s.nodes.rows.getLast?, ∀ first ∈ call.newNodes.head?, newest.byTime first) :
    InOrder P s call := by
  refine fun _ _ => ⟨?_, hfirst⟩
  have hlast : call.now + ((1 : Nat) + (turnsOf call.clean).length) * turnStep + 1 ≤ 2 ^ 32 := by
    push_cast
    exact hend
  exact ((pairwise_newNodes call.ids hnow hlast).imp .inl).isChain

/-! ## 4.  The readers -/

/-- All nodes of a chain are in the ancestry of its head. -/
theorem Chained.ancestryNodes {s : Conversation} (hs : Chained s) (hhead : s.headNodeId ≠ "") :
    ancestryNodes s s.headNodeId = s.nodes.rows := by
  refine List.filter_eq_self.mpr fun n hn => ?_
  rw [decide_eq_true_iff, Dag.mem_ancestry, hs.edges]
  have hlast : s.nodeIds.getLast? = some s.headNodeId := by
    rw [← hs.head, Conversation.head?, if_neg hhead]
  obtain ⟨before, after, hsplit⟩ := List.append_of_mem
    (List.mem_map_of_mem (f := fun n : ConversationNode => n.nodeId) hn)
  have hsplit : s.nodeIds = before ++ n.nodeId :: after := hsplit
  rw [hsplit] at hlast ⊢
  exact Dag.reaches_chain hlast

/-- A chain without a head has no nodes. -/
theorem Chained.rows_eq_nil {s : Conversation} (hs : Chained s) (hhead : s.headNodeId = "") :
    s.nodes.rows = [] := by
  have hnone : s.nodeIds.getLast? = none := by
    rw [← hs.head, Conversation.head?, if_pos hhead]
  exact List.map_eq_nil_iff.mp (List.getLast?_eq_none_iff.mp hnone)

theorem Chained.historyRows {s : Conversation} (hs : Chained s) :
    historyRows s s.headNodeId = s.nodes.rows.insertionSort ConversationNode.byTime := by
  unfold ChatSessions.historyRows
  split
  · rename_i hhead
    rw [hs.rows_eq_nil hhead]
    rfl
  · rename_i hhead
    rw [hs.ancestryNodes hhead]

/-- Sorted nodes are read as they are. -/
theorem Chained.historyRows_of_sorted {s : Conversation} (hs : Chained s) (hsorted : Sorted s) :
    ChatSessions.historyRows s s.headNodeId = s.nodes.rows := by
  rw [hs.historyRows]
  exact hsorted.insertionSort_eq

theorem orderedInsert_of_forall_not {α : Type} {r : α → α → Prop} [DecidableRel r] {x : α}
    {l : List α} (h : ∀ y ∈ l, ¬ r x y) : l.orderedInsert r x = l ++ [x] := by
  induction l with
  | nil => rfl
  | cons y l ih =>
      rw [List.orderedInsert_of_not_le _ _ (h y List.mem_cons_self),
        ih fun z hz => h z (List.mem_cons_of_mem _ hz)]
      rfl

/-- Sorting sorted nodes the other way around reverses them. -/
theorem insertionSort_byTime_desc {rows : List ConversationNode}
    (hsorted : rows.Pairwise ConversationNode.byTime) (hnodup : (rows.map (·.nodeId)).Nodup) :
    (rows.insertionSort fun m n => n.byTime m) = rows.reverse := by
  induction rows with
  | nil => rfl
  | cons n rows ih =>
      rw [List.pairwise_cons] at hsorted
      rw [List.map_cons, List.nodup_cons] at hnodup
      rw [List.insertionSort_cons, ih hsorted.2 hnodup.2, List.reverse_cons]
      refine orderedInsert_of_forall_not fun m hm => ?_
      have hm := List.mem_reverse.mp hm
      exact ConversationNode.not_byTime (hsorted.1 m hm) fun heq =>
        hnodup.1 (heq ▸ List.mem_map_of_mem hm)

theorem Chained.historyNodes_of_sorted {s : Conversation} (hs : Chained s) (hsorted : Sorted s)
    (limit : Nat) :
    historyNodes s "" limit = .ok (lastItems (min 20000 (max 1 limit)) s.nodes.rows) := by
  unfold historyNodes
  rw [if_pos rfl]
  dsimp only
  split
  · rename_i hhead
    rw [hs.rows_eq_nil hhead, lastItems, List.drop_nil]
  · rename_i hhead
    rw [if_neg (by rw [not_not, Dag.mem_ancestry]; exact .refl), hs.ancestryNodes hhead,
      insertionSort_byTime_desc hsorted s.nodes.unique, List.take_reverse, List.reverse_reverse]
    rfl

/-- The topological reader follows the chain, whatever the time stamps are. -/
theorem Chained.contextSources {s : Conversation} (hs : Chained s) :
    contextSources H s = .ok (coverage H s s.nodes.rows, s.nodes.rows) := by
  have hrows : (if s.headNodeId = "" then [] else ChatSessions.ancestryNodes s s.headNodeId) =
      s.nodes.rows := by
    split
    · rename_i hhead
      exact (hs.rows_eq_nil hhead).symm
    · rename_i hhead
      exact hs.ancestryNodes hhead
  have hfind : ∀ rows : List ConversationNode, (∀ n ∈ rows, n ∈ s.nodes.rows) →
      (rows.map (·.nodeId)).filterMap s.nodes.find? = rows := by
    intro rows hmem
    induction rows with
    | nil => rfl
    | cons n rows ih =>
        have hn := Table.find?_key_of_mem (hmem n List.mem_cons_self)
        rw [List.map_cons, List.filterMap_cons_some hn, ih fun m hm => hmem m (by simp [hm])]
  unfold ChatSessions.contextSources
  rw [hrows]
  dsimp only
  rw [hs.edges]
  have htopological := Dag.topological_chain (nodeKey s) (nodup_nodeIds s)
  unfold Conversation.nodeIds at htopological ⊢
  rw [htopological, hfind _ fun n hn => hn, if_neg (by simp)]

/-! ## 5.  Over a run -/

/-- The messages that have been appended, in order. -/
def appended : List (AppendCall × AppendReply) → List ChatMessage
  | [] => []
  | (call, .appended _) :: h => appended h ++ call.clean
  | _ :: h => appended h

/-- **Every reader lists the messages in the order in which they were appended.** -/
structure InConversationOrder (P : Interpreter) (H : Host) (messages : List ChatMessage)
    (s : Conversation) : Prop where
  stored : s.nodes.rows.map (·.toChatMessage) = messages
  canonical : canonicalContext P H s =
    (coverage H s s.nodes.rows, projectionMessages P s.nodes.rows)
  nodes : ∀ limit, historyNodes s "" limit =
    .ok (lastItems (min 20000 (max 1 limit)) s.nodes.rows)
  session : ∀ maxMessages, sessionMessages maxMessages s =
    .ok (lastItems (max 1 maxMessages) ((lastItems 20000 s.nodes.rows).map sessionMessage))
  sources : contextSources H s = .ok (coverage H s s.nodes.rows, s.nodes.rows)

/-- What holds in every state: the nodes are a chain of the appended messages. -/
theorem chained_of_run {c b title : String} {created : ℚ}
    {h : List (AppendCall × AppendReply)} {s : Conversation}
    (hrun : (conversation P (.create c b title created)).Run h s) :
    Chained s ∧ s.nodes.rows.map (·.toChatMessage) = appended h := by
  refine hrun.invariant (I := fun h s => Chained s ∧ s.nodes.rows.map (·.toChatMessage) = appended h)
    ⟨⟨rfl, rfl⟩, rfl⟩ ?_
  intro h s call reply s' _ ⟨hs, hmessages⟩ hstep
  rcases appendMessages_cases hs hstep with ⟨rfl, hreply⟩ | ⟨⟨head, rfl⟩, -, hext⟩
  · refine ⟨hs, hmessages.trans ?_⟩
    cases reply with
    | appended head => exact absurd rfl (hreply head)
    | _ => rfl
  · refine ⟨hext.chained, ?_⟩
    rw [hext.rows, List.map_append, hmessages, AppendCall.newNodes, messages_newNodes,
      messages_turnsOf]
    rfl

/-- A step of a chain that is in order keeps its rows as a prefix. -/
theorem step_sorted {call : AppendCall} {s s' : Conversation} {reply : AppendReply}
    (hs : Chained s) (hsorted : Sorted s) (horder : InOrder P s call)
    (h : appendMessages P call.now call.clean call.ids s = (reply, s')) :
    Chained s' ∧ Sorted s' ∧ s.nodes.rows <+: s'.nodes.rows ∧
      s'.conversationId = s.conversationId ∧ s'.branchId = s.branchId := by
  rcases appendMessages_cases hs h with ⟨rfl, -⟩ | ⟨-, hack, hext⟩
  · exact ⟨hs, hsorted, List.prefix_rfl, rfl, rfl⟩
  · exact ⟨hext.chained, hsorted.append hext hack horder, hext.rows ▸ List.prefix_append _ _,
      hext.conversationId, hext.branchId⟩

theorem sorted_of_run {c b title : String} {created : ℚ}
    {h : List (AppendCall × AppendReply)} {s : Conversation}
    (hrun : (conversation P (.create c b title created)).RunWhere (fun _ => InOrder P) h s) :
    Sorted s := by
  refine hrun.invariant (I := fun _ s => Sorted s)
    (show Sorted (.create c b title created) from List.Pairwise.nil) ?_
  intro h s call reply s' hrun hsorted horder hstep
  exact (step_sorted (chained_of_run hrun.run).1 hsorted horder hstep).2.1

/-- A cursor covers a prefix of a history that starts with the rows it was taken of. -/
theorem coveredPrefix_of_prefix {s s' : Conversation} (hs : Chained s)
    (hrows : s.nodes.rows <+: s'.nodes.rows) (hconversation : s'.conversationId = s.conversationId)
    (hbranch : s'.branchId = s.branchId) :
    coveredPrefix H s' s'.nodes.rows (coverage H s s.nodes.rows) = true := by
  have htake : s'.nodes.rows.take s.nodes.rows.length = s.nodes.rows :=
    (List.prefix_iff_eq_take.mp hrows).symm
  have hhead : s.headNodeId ∈ s.nodes.rows.map (·.nodeId) ∨
      s.nodes.rows.length = 0 ∧ s.headNodeId = "" := by
    by_cases hhead : s.headNodeId = ""
    · exact .inr ⟨by rw [hs.rows_eq_nil hhead, List.length_nil], hhead⟩
    · refine .inl (List.mem_of_getLast? ?_)
      show s.nodeIds.getLast? = some s.headNodeId
      rw [← hs.head, Conversation.head?, if_neg hhead]
  simp only [coveredPrefix, coverage, htake, hconversation, hbranch, Bool.and_eq_true,
    decide_eq_true_eq, Bool.or_eq_true]
  exact ⟨⟨⟨⟨decide_eq_true hrows.length_le, trivial⟩, trivial⟩, hhead.imp_right decide_eq_true⟩, trivial⟩

/-- **Chat history is in conversation order, and a cursor stays valid**, along every run
whose appends are in order. -/
theorem chat_in_conversation_order {c b title : String} {created : ℚ}
    {h : List (AppendCall × AppendReply)} {s : Conversation}
    (hrun : (conversation P (.create c b title created)).RunWhere (fun _ => InOrder P) h s) :
    InConversationOrder P H (appended h) s ∧
      ∀ later s', (conversation P (.create c b title created)).Extends (fun _ => InOrder P) h s
          later s' →
        (contextProjectionView P H s' (some (canonicalContext P H s).1)).valid = true ∧
        (canonicalContext P H s).2 ++
            (contextProjectionView P H s' (some (canonicalContext P H s).1)).suffix =
          (canonicalContext P H s').2 := by
  obtain ⟨hs, hmessages⟩ := chained_of_run hrun.run
  have hsorted := sorted_of_run hrun
  have hcanonical : canonicalContext P H s =
      (coverage H s s.nodes.rows, projectionMessages P s.nodes.rows) := by
    rw [canonicalContext, hs.historyRows_of_sorted hsorted]
  refine ⟨⟨hmessages, hcanonical, hs.historyNodes_of_sorted hsorted, fun maxMessages => ?_,
    hs.contextSources⟩, fun later s' hext => ?_⟩
  · rw [sessionMessages, hs.historyNodes_of_sorted hsorted]
    rfl
  obtain ⟨hs', hsorted', hrows, hconversation, hbranch⟩ := hext.invariant
    (I := fun _ s' => Chained s' ∧ Sorted s' ∧ s.nodes.rows <+: s'.nodes.rows ∧
      s'.conversationId = s.conversationId ∧ s'.branchId = s.branchId)
    ⟨hs, hsorted, List.prefix_rfl, rfl, rfl⟩
    (fun later s₁ call reply s₂ _ ⟨hs₁, hsorted₁, hrows₁, hconversation₁, hbranch₁⟩ horder hstep => by
      obtain ⟨hs₂, hsorted₂, hrows₂, hconversation₂, hbranch₂⟩ :=
        step_sorted hs₁ hsorted₁ horder hstep
      exact ⟨hs₂, hsorted₂, hrows₁.trans hrows₂, hconversation₂.trans hconversation₁,
        hbranch₂.trans hbranch₁⟩)
  have hvalid := coveredPrefix_of_prefix (H := H) hs hrows hconversation hbranch
  rw [hcanonical]
  unfold contextProjectionView
  simp only [hs'.historyRows_of_sorted hsorted', Option.any_some, hvalid, if_true, Option.map_some,
    Option.getD_some, true_and]
  rw [canonicalContext, hs'.historyRows_of_sorted hsorted']
  obtain ⟨rest, hrest⟩ := hrows
  show projectionMessages P s.nodes.rows ++
    projectionMessages P (s'.nodes.rows.drop s.nodes.rows.length) = projectionMessages P s'.nodes.rows
  rw [← hrest, List.drop_left]
  exact (List.filterMap_append).symm

/-! ### Concrete runs -/

/-- An interpreter for messages of plain texts. -/
def chatInterpreter : Interpreter :=
  ⟨fun _ => "", id, fun _ => none, id, fun _ => none, fun _ => .ok ""⟩

/-- A user message. -/
def userMessage (text : String) : ChatMessage := ⟨.user, text, []⟩

/-- An append of one message at a time; `serial` tells its identifiers from those of others. -/
def appendAt (now : ℚ) (serial : Nat) (text : String) : AppendCall :=
  ⟨now, [userMessage text], fun _ => ⟨BitVec.ofNat 128 serial, BitVec.ofNat 128 serial, 0⟩⟩

/-- A new chat. -/
def newChat : Conversation := .create "conv" "branch" defaultTitle 0

/-- Two appends, the second at a later clock. -/
theorem chat_in_conversation_order_two :
    ∃ h s, (conversation chatInterpreter newChat).RunWhere (fun _ => InOrder chatInterpreter) h s ∧
      h.length = 2 ∧ InConversationOrder chatInterpreter Host.plain (appended h) s := by
  have hstart : (conversation chatInterpreter newChat).RunWhere (fun _ => InOrder chatInterpreter)
      [] newChat := .start
  have hone := Machine.RunWhere.step (l := appendAt 1 1 "a") hstart
    (inOrder_of_clock (by norm_num [appendAt]) (by norm_num [appendAt, turnsOf, turnStep])
      fun newest hnewest => absurd hnewest (by simp [newChat, Conversation.create])) Prod.mk.eta.symm
  have htwo := Machine.RunWhere.step (l := appendAt 2 2 "b") hone
    (inOrder_of_clock (by norm_num [appendAt]) (by norm_num [appendAt, turnsOf, turnStep]) ?_)
    Prod.mk.eta.symm
  · exact ⟨_, _, htwo, rfl, (chat_in_conversation_order htwo).1⟩
  · have hlater : ∀ newest ∈ ((appendMessages chatInterpreter 1 (appendAt 1 1 "a").clean
          (appendAt 1 1 "a").ids newChat).2.nodes.rows.getLast?).map (·.createdAt),
        ∀ first ∈ ((appendAt 2 2 "b").newNodes.head?).map (·.createdAt), newest < first := by
      decide +kernel
    exact fun newest hnewest first hfirst => .inl (hlater newest.createdAt
      (Option.mem_map_of_mem _ hnewest) first.createdAt (Option.mem_map_of_mem _ hfirst))

/-- What the readers list after two appends: the texts of the context and of the topological
reader, and whether a cursor taken between the appends is valid. -/
def listedTexts (first second : AppendCall) : List String × List String × Bool :=
  let s₁ := (appendMessages chatInterpreter first.now first.clean first.ids newChat).2
  let s₂ := (appendMessages chatInterpreter second.now second.clean second.ids s₁).2
  ((canonicalContext chatInterpreter Host.plain s₂).2.map (·.content),
    ((contextSources Host.plain s₂).toOption.map fun p => p.2.map (·.content)).getD [],
    (contextProjectionView chatInterpreter Host.plain s₂
      (some (canonicalContext chatInterpreter Host.plain s₁).1)).valid)

/-- With a clock that goes back, the readers disagree, and the cursor is lost. -/
theorem context_out_of_order :
    listedTexts (appendAt 2 1 "a") (appendAt 1 2 "b") = (["b", "a"], ["a", "b"], false) := by
  decide +kernel

end ChatSessions
end VariantOne
