import VariantOne.Lib.Attach
import VariantOne.ModelRuntime.WireIds

/-!
# Tool images and the batches of results

A conversation is made of *turns*: a message with its calls, and the results of these calls.  An image
of a tool belongs after the turn of its anchors.  `build_message_graph` puts it right after the last
result its anchors name, and in front of the images that are there already.  So the images of a turn
stand where they belong when each names the last result of the turn, and in their order when that order
is the same backwards.

`imagesAfterTurns_iff` is the result.  `placeImage_eq` and `placeImages_eq` bring the code to the form of
`Lib/Attach`, where entries are the nodes of the graph and groups are the turns, and its condition is
read back in terms of anchors.
-/

namespace VariantOne
namespace ModelRuntime

variable {P : ProjectionHost}

/-! ## 1.  Turns -/

/-- The results of a node. -/
def MessageNode.results (n : MessageNode) : List ToolResultPart := n.parts.filterMap ModelPart.result?

/-- The node holds a result the image is anchored to. -/
def anchoredAt (o : ImageObservation) (n : MessageNode) : Bool :=
  n.results.any fun r => decide (r.sourceId ∈ o.toolCallIds)

/-- A message and the tool messages that follow it. -/
structure Turn where
  head : MessageNode
  answers : List MessageNode

def Turn.nodes (t : Turn) : List MessageNode := t.head :: t.answers

/-- The tool messages answer the calls of the message. -/
structure Turn.Complete (t : Turn) : Prop where
  head : t.head.role ≠ "tool"
  answers : ∀ n ∈ t.answers, n.role = "tool"
  answered : ((t.answers.flatMap MessageNode.results).map (·.callRef)).Perm (callRefs t.head.parts)

/-- An image of a tool with anchors among the calls of a graph. -/
structure ImageObservation.AnchoredIn (o : ImageObservation) (g : MessageGraph) : Prop where
  origin : o.origin = "tool_result"
  anchors : o.toolCallIds ≠ []
  known : ∀ id ∈ o.toolCallIds, id ∈ g.calls.map (·.sourceId)

/-- A node that stands for a tool image holds the image only. -/
def MessageNode.view (n : MessageNode) : MessageNode ⊕ ImageObservation :=
  if n.sourceIndex < 0 then
    match n.parts with
    | [.image o _] => .inr o
    | _ => .inl n
  else .inl n

/-- **Tool images never split a batch.**  The nodes are those of the turns, and every turn is followed by
the images anchored to it, and to nothing later, in the given order. -/
def ImagesAfterTurns (turns : List Turn) (os : List ImageObservation) (g : MessageGraph) : Prop :=
  g.messages.map MessageNode.view = Attach.grouped anchoredAt os (turns.map Turn.nodes)

/-- Each image of a turn is anchored to the last message of the turn, and the images of a turn are the
same backwards. -/
def AnchoredAtEnds (turns : List Turn) (os : List ImageObservation) : Prop :=
  ∀ before t later, turns = before ++ t :: later →
    Attach.AtEnd anchoredAt os t.nodes (later.flatMap Turn.nodes)

/-! ## 2.  Where an image is put -/

theorem anchoredAt_view (o : ImageObservation) (n : MessageNode) :
    Sum.elim (anchoredAt o) (fun _ => false) n.view = anchoredAt o n := by
  unfold MessageNode.view
  split
  · split
    · rename_i hparts
      simp [anchoredAt, MessageNode.results, hparts, ModelPart.result?]
    · rfl
  · rfl

/-- The last index with a property, as the maximum of the indices with it. -/
theorem foldl_max_eq {is : List Nat} {i a : Nat} (hmem : i ∈ is ∨ i = a) (hle : ∀ j ∈ is, j ≤ i) (ha : a ≤ i) :
    is.foldl max a = i := by
  induction is generalizing a with
  | nil =>
      rcases hmem with hmem | rfl
      · exact absurd hmem (by simp)
      · rfl
  | cons j is ih =>
      obtain ⟨hj, hrest⟩ := List.forall_mem_cons.mp hle
      rw [List.foldl_cons]
      refine ih ?_ hrest (Nat.max_le.mpr ⟨ha, hj⟩)
      rcases hmem with hmem | rfl
      · rcases List.mem_cons.mp hmem with rfl | hmem
        · exact .inr (Nat.max_eq_right ha).symm
        · exact .inl hmem
      · exact .inr (Nat.max_eq_left hj).symm

theorem mem_anchorResults {nodes : List MessageNode} {ids : List String} {p : Nat × ToolResultPart} :
    p ∈ anchorResults nodes ids ↔
      ∃ n, nodes[p.1]? = some n ∧ p.2 ∈ n.results ∧ p.2.sourceId ∈ ids := by
  unfold anchorResults
  rw [List.mem_flatMap]
  constructor
  · rintro ⟨⟨n, i⟩, hn, hp⟩
    obtain ⟨r, hr, heq⟩ := List.mem_filterMap.mp hp
    split at heq
    · rename_i hid
      obtain rfl := Option.some.inj heq
      exact ⟨n, List.mk_mem_zipIdx_iff_getElem?.mp hn, hr, hid⟩
    · cases heq
  · rintro ⟨n, hn, hr, hid⟩
    refine ⟨(n, p.1), List.mk_mem_zipIdx_iff_getElem?.mpr hn, List.mem_filterMap.mpr ⟨p.2, hr, ?_⟩⟩
    rw [if_pos hid]

theorem anchoredAt_iff {o : ImageObservation} {n : MessageNode} :
    anchoredAt o n = true ↔ ∃ r ∈ n.results, r.sourceId ∈ o.toolCallIds := by
  simp [anchoredAt]

/-- Below the last index with a property are all of them. -/
theorem le_lastIdx {γ : Type} {p : γ → Bool} {ys : List γ} {i j : Nat} {y : γ} (h : lastIdx? p ys = some i)
    (hj : ys[j]? = some y) (hy : p y = true) : j ≤ i := by
  induction ys generalizing i j with
  | nil => cases h
  | cons z ys ih =>
      rw [lastIdx?] at h
      cases j with
      | zero => exact Nat.zero_le i
      | succ j =>
          cases hlast : lastIdx? p ys with
          | some k =>
              rw [hlast] at h
              obtain rfl := Option.some.inj h
              exact Nat.succ_le_succ (ih hlast hj)
          | none =>
              have hno := lastIdx?_eq_none hlast y (List.mem_of_getElem? hj)
              rw [hy] at hno
              cases hno

/-- **One image.**  It is put right after the last node with a result it is anchored to. -/
theorem placeImage_eq {nodes : List MessageNode} {o : ImageObservation} (horigin : o.origin = "tool_result")
    (hids : o.toolCallIds ≠ [])
    (hknown : ∀ id ∈ o.toolCallIds, ∃ n ∈ nodes, ∃ r ∈ n.results, r.sourceId = id) :
    ∃ node, node.view = .inr o ∧
      placeImage nodes o = .ok (Attach.insertAfterLast (anchoredAt o) node nodes) := by
  have hfound : ∀ id ∈ o.toolCallIds, id ∈ (anchorResults nodes o.toolCallIds).map (·.2.sourceId) := by
    intro id hid
    obtain ⟨n, hn, r, hr, rfl⟩ := hknown id hid
    obtain ⟨i, hi⟩ := List.mem_iff_getElem?.mp hn
    exact List.mem_map.mpr ⟨(i, r), mem_anchorResults.mpr ⟨n, hi, hr, hid⟩, rfl⟩
  have hmissing : (o.toolCallIds.filter
      (· ∉ (anchorResults nodes o.toolCallIds).map (·.2.sourceId))).dedup = [] := by
    rw [List.filter_eq_nil_iff.mpr fun id hid => by simpa using hfound id hid]
    rfl
  obtain ⟨id, rest, hcons⟩ := List.exists_cons_of_ne_nil hids
  obtain ⟨n, hn, r, hr, hrid⟩ := hknown id (hcons ▸ List.mem_cons_self)
  have hany : nodes.any (anchoredAt o) = true :=
    List.any_eq_true.mpr ⟨n, hn, anchoredAt_iff.mpr ⟨r, hr, by rw [hrid, hcons]; exact List.mem_cons_self⟩⟩
  rw [← Attach.lastIdx?_isSome_iff] at hany
  obtain ⟨i, hi⟩ := Option.isSome_iff_exists.mp hany
  have hmax : ((anchorResults nodes o.toolCallIds).map (·.1)).foldl max 0 = i := by
    obtain ⟨m, hm, hanchored⟩ := lastIdx?_eq_some hi
    obtain ⟨r', hr', hid'⟩ := anchoredAt_iff.mp hanchored
    refine foldl_max_eq (.inl ?_) (fun j hj => ?_) (Nat.zero_le i)
    · exact List.mem_map.mpr ⟨(i, r'), mem_anchorResults.mpr ⟨m, hm, hr', hid'⟩, rfl⟩
    · obtain ⟨⟨j', r''⟩, hp, rfl⟩ := List.mem_map.mp hj
      obtain ⟨m', hm', hr'', hid''⟩ := mem_anchorResults.mp hp
      exact le_lastIdx hi hm' (anchoredAt_iff.mpr ⟨r'', hr'', hid''⟩)
  refine ⟨⟨s!"image_tool_{i + 1}", "user",
    [.image o ((anchorResults nodes o.toolCallIds).map (·.2.callRef))], -1⟩, rfl, ?_⟩
  unfold placeImage
  rw [if_pos horigin, if_neg hids]
  dsimp only
  rw [if_neg (not_not.mpr hmissing), hmax, Attach.insertIdx_lastIdx hi]

/-- **All images**, one after the other. -/
theorem placeImages_eq {base nodes : List MessageNode} {done os : List ImageObservation}
    (hview : nodes.map MessageNode.view = Attach.flat (Attach.attached anchoredAt done base))
    (horigin : ∀ o ∈ os, o.origin = "tool_result" ∧ o.toolCallIds ≠ [] ∧
      ∀ id ∈ o.toolCallIds, ∃ n ∈ base, ∃ r ∈ n.results, r.sourceId = id) :
    ∃ nodes', placeImages nodes os = .ok nodes' ∧
      nodes'.map MessageNode.view = Attach.flat (Attach.attached anchoredAt (done ++ os) base) := by
  induction os generalizing nodes done with
  | nil => exact ⟨nodes, rfl, by rw [List.append_nil]; exact hview⟩
  | cons o os ih =>
      obtain ⟨⟨ho, hids, hknown⟩, hrest⟩ := List.forall_mem_cons.mp horigin
      have hthere : ∀ id ∈ o.toolCallIds, ∃ n ∈ nodes, ∃ r ∈ n.results, r.sourceId = id := fun id hid => by
        obtain ⟨n, hn, r, hr, hrid⟩ := hknown id hid
        have hmem : (Sum.inl n : MessageNode ⊕ ImageObservation) ∈ nodes.map MessageNode.view := by
          rw [hview]
          exact Attach.inl_mem_flat_attached hn
        obtain ⟨n', hn', hsame⟩ := List.mem_map.mp hmem
        have heq : n' = n := by
          unfold MessageNode.view at hsame
          split at hsame
          · split at hsame
            · cases hsame
            · exact Sum.inl.inj hsame
          · exact Sum.inl.inj hsame
        exact ⟨n, heq ▸ hn', r, hr, hrid⟩
      obtain ⟨node, hnode, hplace⟩ := placeImage_eq ho hids hthere
      have hnext : (Attach.insertAfterLast (anchoredAt o) node nodes).map MessageNode.view =
          Attach.flat (Attach.attached anchoredAt (done ++ [o]) base) := by
        rw [Attach.map_insertAfterLast (anchoredAt_view o), hview, hnode, Attach.insertAfterLast_flat,
          Attach.attached_snoc]
      obtain ⟨nodes', hplaces, hview'⟩ := ih hnext hrest
      refine ⟨nodes', ?_, by rw [hview', List.append_assoc]; rfl⟩
      rw [placeImages, hplace]
      exact hplaces

/-! ## 3.  The graph -/

theorem sourceIndex_of_parseMessage {s s' : ParseState} {raw : PyValue} {n : Nat}
    (hs : ∀ node ∈ s.nodes, 0 ≤ node.sourceIndex) (h : parseMessage P s raw n = .ok s') :
    ∀ node ∈ s'.nodes, 0 ≤ node.sourceIndex := by
  have hsnoc : ∀ node : MessageNode, node.sourceIndex = n → s'.nodes = s.nodes ++ [node] →
      ∀ node ∈ s'.nodes, 0 ≤ node.sourceIndex := by
    intro node hindex hnodes m hm
    rw [hnodes] at hm
    rcases List.mem_append.mp hm with hm | hm
    · exact hs m hm
    · rw [List.mem_singleton.mp hm, hindex]
      exact Int.natCast_nonneg n
  unfold parseMessage at h
  split at h
  · dsimp only at h
    split at h
    · exact absurd h (by simp)
    split at h
    · obtain ⟨r, c, hnodes, -⟩ := parseResult_eq_ok h
      exact hsnoc _ rfl hnodes
    · obtain ⟨parts, calls, hnodes, -⟩ := parseContent_eq_ok h
      exact hsnoc _ rfl hnodes
  · exact absurd h (by simp)

theorem sourceIndex_of_parseMessages {s s' : ParseState} {raws : List PyValue} {n : Nat}
    (hs : ∀ node ∈ s.nodes, 0 ≤ node.sourceIndex) (h : parseMessages P s raws n = .ok s') :
    ∀ node ∈ s'.nodes, 0 ≤ node.sourceIndex := by
  induction raws generalizing s n with
  | nil =>
      obtain rfl := Except.ok.inj h
      exact hs
  | cons raw raws ih =>
      rw [parseMessages] at h
      cases hm : parseMessage P s raw n with
      | error e => simp [hm] at h
      | ok s₁ =>
          rw [hm] at h
          exact ih (sourceIndex_of_parseMessage hs hm) h

/-- With other images the messages are parsed the same. -/
theorem buildMessageGraph_eq {messages : List PyValue} {g₀ : MessageGraph}
    (h : buildMessageGraph P messages [] = .ok g₀) (images : List ImageInput) :
    (∀ node ∈ g₀.messages, 0 ≤ node.sourceIndex) ∧
      buildMessageGraph P messages images = (do
        let observations ← coerceImages P images
        let nodes ← placeImages g₀.messages observations
        return ⟨nodes⟩) := by
  obtain ⟨s, hs, h⟩ := except_bind_eq_ok.mp h
  split at h
  · exact absurd h (by simp [throw, throwThe, MonadExceptOf.throw])
  rename_i hpending
  obtain ⟨os, hos, h⟩ := except_bind_eq_ok.mp h
  obtain rfl := Except.ok.inj hos
  obtain ⟨nodes, hnodes, h⟩ := except_bind_eq_ok.mp h
  obtain rfl := Except.ok.inj hnodes
  obtain rfl := Except.ok.inj h
  refine ⟨sourceIndex_of_parseMessages (by simp [ParseState.init]) hs, ?_⟩
  unfold buildMessageGraph
  rw [hs]
  exact if_neg hpending

/-- Every call of complete turns has a result with its id. -/
theorem result_of_call {g : MessageGraph} (hg : g.Sound) {turns : List Turn}
    (hturns : g.messages = turns.flatMap Turn.nodes) (hcomplete : ∀ t ∈ turns, t.Complete) {c : ToolCallPart}
    (hc : c ∈ g.calls) : ∃ n ∈ g.messages, ∃ r ∈ n.results, r.sourceId = c.sourceId := by
  obtain ⟨part, hpart, hcall⟩ := List.mem_filterMap.mp hc
  obtain rfl : part = .call c := by
    cases part <;> simp [ModelPart.call?] at hcall
    rw [hcall]
  obtain ⟨n, hn, hnpart⟩ := List.mem_flatMap.mp hpart
  rw [hturns] at hn
  obtain ⟨t, ht, hnt⟩ := List.mem_flatMap.mp hn
  have hthis := hcomplete t ht
  have hhead : n = t.head := by
    rcases List.mem_cons.mp hnt with rfl | hanswer
    · rfl
    · have hrole := hthis.answers n hanswer
      rcases hg.shaped n (hturns ▸ hn) with ⟨-, r, hparts⟩ | ⟨hno, -⟩
      · rw [hparts, List.mem_singleton] at hnpart
        cases hnpart
      · exact absurd hrole hno
  subst hhead
  have href : c.ref ∈ callRefs t.head.parts :=
    List.mem_map.mpr ⟨c, List.mem_filterMap.mpr ⟨_, hnpart, rfl⟩, rfl⟩
  obtain ⟨r, hr, hrref⟩ := List.mem_map.mp (hthis.answered.mem_iff.mpr href)
  obtain ⟨m, hm, hrm⟩ := List.mem_flatMap.mp hr
  have hmg : m ∈ g.messages := by
    rw [hturns]
    exact List.mem_flatMap.mpr ⟨t, ht, List.mem_cons_of_mem _ hm⟩
  refine ⟨m, hmg, r, hrm, ?_⟩
  obtain ⟨part, hpartm, hresult⟩ := List.mem_filterMap.mp hrm
  obtain rfl : part = .result r := by
    cases part <;> simp [ModelPart.result?] at hresult
    rw [hresult]
  have hlink : ModelPart.result r ∈ linkParts g.messages :=
    List.mem_filter.mpr ⟨List.mem_flatMap.mpr ⟨m, hmg, hpartm⟩, rfl⟩
  obtain ⟨k, hk⟩ := List.mem_iff_getElem?.mp hlink
  obtain ⟨j, c', -, hj, href', hsource⟩ := hg.follows k r hk
  have hc' : c' ∈ g.calls := by
    refine List.mem_filterMap.mpr ⟨.call c', ?_, rfl⟩
    exact List.mem_of_mem_filter (List.mem_of_getElem? hj)
  rw [← hsource, List.inj_on_of_nodup_map hg.nodup hc' hc (href'.trans hrref)]

theorem view_of_sourceIndex {n : MessageNode} (h : 0 ≤ n.sourceIndex) : n.view = .inl n :=
  if_neg (not_lt.mpr h)

/-- **When tool images leave the batches whole and in order.** -/
theorem imagesAfterTurns_iff {messages : List PyValue} {images : List ImageInput} {g₀ : MessageGraph}
    {turns : List Turn} {os : List ImageObservation} (hg₀ : buildMessageGraph P messages [] = .ok g₀)
    (hturns : g₀.messages = turns.flatMap Turn.nodes) (hcomplete : ∀ t ∈ turns, t.Complete)
    (hos : coerceImages P images = .ok os) (hanchored : ∀ o ∈ os, o.AnchoredIn g₀) :
    ∃ g, buildMessageGraph P messages images = .ok g ∧
      (ImagesAfterTurns turns os g ↔ AnchoredAtEnds turns os) := by
  obtain ⟨hindex, hbuild⟩ := buildMessageGraph_eq hg₀ images
  have hview : g₀.messages.map MessageNode.view =
      Attach.flat (Attach.attached anchoredAt [] g₀.messages) := by
    rw [Attach.attached_nil, Attach.flat_bare]
    exact List.map_congr_left fun n hn => view_of_sourceIndex (hindex n hn)
  obtain ⟨nodes, hplaces, hnodes⟩ := placeImages_eq hview fun o ho => by
    refine ⟨(hanchored o ho).origin, (hanchored o ho).anchors, fun id hid => ?_⟩
    obtain ⟨c, hc, rfl⟩ := List.mem_map.mp ((hanchored o ho).known id hid)
    exact result_of_call (sound_of_buildMessageGraph hg₀) hturns hcomplete hc
  refine ⟨⟨nodes⟩, by
    rw [hbuild, hos]
    exact except_bind_eq_ok.mpr ⟨os, rfl, except_bind_eq_ok.mpr ⟨nodes, hplaces, rfl⟩⟩, ?_⟩
  have hne : ∀ as ∈ turns.map Turn.nodes, as ≠ [] := fun as has => by
    obtain ⟨t, -, rfl⟩ := List.mem_map.mp has
    exact List.cons_ne_nil _ _
  have hiff := Attach.flat_attached_eq_grouped_iff anchoredAt os hne
  have hbase : (turns.map Turn.nodes).flatten = g₀.messages := by rw [hturns, List.flatMap_def]
  unfold ImagesAfterTurns
  rw [hnodes, List.nil_append, ← hbase, hiff]
  constructor
  · intro hall before t later heq
    have hthis := hall (before.map Turn.nodes) t.nodes (later.map Turn.nodes) (by rw [heq]; simp)
    rwa [← List.flatMap_def] at hthis
  · intro hall before as later heq
    obtain ⟨before', rest, rfl, rfl, hrest⟩ := List.map_eq_append_iff.mp heq
    obtain ⟨t, later', rfl, rfl, rfl⟩ := List.map_eq_cons_iff.mp hrest
    rw [← List.flatMap_def]
    exact hall before' t later' rfl

/-! ## 4.  Two calls of one turn -/

/-- Two calls, and their results. -/
def twoCalls : List PyValue :=
  let call (id : String) : PyValue := .dict [("id", .str id), ("function", .dict [("name", .str "f")])]
  let result (id : String) : PyValue :=
    .dict [("role", .str "tool"), ("tool_call_id", .str id), ("content", .str "ok")]
  [.dict [("role", .str "assistant"), ("tool_calls", .list [call "a", call "b"])], result "a", result "b"]

/-- The turn they are. -/
def twoCallsTurn : Turn where
  head := ⟨"m0", "assistant", [.call ⟨"c0_0", "a", "f", [], []⟩, .call ⟨"c0_1", "b", "f", [], []⟩], 0⟩
  answers := [⟨"m1", "tool", [.result ⟨"c0_0", "a", "f", "ok", false⟩], 1⟩,
    ⟨"m2", "tool", [.result ⟨"c0_1", "b", "f", "ok", false⟩], 2⟩]

/-- An image a call returned. -/
def imageOf (id : String) : ImageObservation :=
  { url := "https://host/i.png", origin := "tool_result", toolCallIds := [id] }

theorem buildMessageGraph_twoCalls :
    buildMessageGraph emptyArguments twoCalls [] = .ok ⟨twoCallsTurn.nodes⟩ := rfl

theorem twoCallsTurn_complete : ∀ t ∈ [twoCallsTurn], t.Complete := by
  simp only [List.mem_singleton, forall_eq]
  exact ⟨by decide, by decide, by decide⟩

theorem anchoredIn_twoCalls {id : String} (h : id = "a" ∨ id = "b") :
    ∀ o ∈ [imageOf id], o.AnchoredIn ⟨twoCallsTurn.nodes⟩ := by
  simp only [List.mem_singleton, forall_eq]
  refine ⟨rfl, by simp [imageOf], ?_⟩
  rcases h with rfl | rfl <;> decide

theorem imagesAfterTurns_iff_last :
    ∃ g, buildMessageGraph emptyArguments twoCalls [.observation (imageOf "b")] = .ok g ∧
      (ImagesAfterTurns [twoCallsTurn] [imageOf "b"] g ↔ AnchoredAtEnds [twoCallsTurn] [imageOf "b"]) :=
  imagesAfterTurns_iff buildMessageGraph_twoCalls rfl twoCallsTurn_complete rfl
    (anchoredIn_twoCalls (.inr rfl))

/-- An image of the first of two calls stands between the two results. -/
theorem image_between_results :
    (∀ t ∈ [twoCallsTurn], t.Complete) ∧ (∀ o ∈ [imageOf "a"], o.AnchoredIn ⟨twoCallsTurn.nodes⟩) ∧
      buildMessageGraph emptyArguments twoCalls [] = .ok ⟨twoCallsTurn.nodes⟩ ∧
      ∃ g, buildMessageGraph emptyArguments twoCalls [.observation (imageOf "a")] = .ok g ∧
        g.messages.map (·.role) = ["assistant", "tool", "user", "tool"] ∧
        ¬ ImagesAfterTurns [twoCallsTurn] [imageOf "a"] g := by
  refine ⟨twoCallsTurn_complete, anchoredIn_twoCalls (.inl rfl), rfl, _, rfl, by decide, fun h => ?_⟩
  have hthird := congrArg (·[2]?) h
  cases hthird

end ModelRuntime
end VariantOne
