import Mathlib.Data.List.InsertIdx
import VariantOne.Lib.Txn
import VariantOne.ModelRuntime.Render

/-!
# The links of a message graph

What ties a graph together are its calls and results, in the order of its parts.
A graph that `build_message_graph` returns is *linked*: its calls have distinct
references and every result comes after the call it refers to.  Placing images
moves no link.

`sound_of_buildMessageGraph` is the result.  Parsing is a fold over messages with a table of the calls
that may still be answered, and `Linked` is the invariant that the fold carries: the table names calls of
the parts so far.  Images are parts without a link, so placing one filters away (`linkParts_insertIdx`).
-/

namespace VariantOne
namespace ModelRuntime

variable {P : ProjectionHost}

/-! ## 1.  Links -/

/-- A call or a result. -/
def ModelPart.isLink : ModelPart → Bool
  | .call _ | .result _ => true
  | _ => false

def ModelPart.link? : ModelPart → Option (Link String)
  | .call c => some (.call c.ref)
  | .result r => some (.result r.callRef)
  | _ => none

/-- The calls and results of all nodes, in order. -/
def linkParts (nodes : List MessageNode) : List ModelPart :=
  (partsOf nodes).filter ModelPart.isLink

/-- Every result comes after its call. -/
def Follows (parts : List ModelPart) : Prop :=
  ∀ (k : Nat) (r : ToolResultPart), parts[k]? = some (.result r) →
    ∃ (j : Nat) (c : ToolCallPart), j < k ∧ parts[j]? = some (.call c) ∧
      c.ref = r.callRef ∧ c.sourceId = r.sourceId

/-- The references of the calls among some parts. -/
def callRefs (parts : List ModelPart) : List String :=
  (parts.filterMap ModelPart.call?).map (·.ref)

@[simp] theorem partsOf_append (nodes nodes' : List MessageNode) :
    partsOf (nodes ++ nodes') = partsOf nodes ++ partsOf nodes' := by
  simp [partsOf]

@[simp] theorem linkParts_append (nodes nodes' : List MessageNode) :
    linkParts (nodes ++ nodes') = linkParts nodes ++ linkParts nodes' := by
  simp [linkParts]

@[simp] theorem linkParts_singleton (node : MessageNode) :
    linkParts [node] = node.parts.filter ModelPart.isLink := by
  simp [linkParts, partsOf]

@[simp] theorem callRefs_append (xs ys : List ModelPart) :
    callRefs (xs ++ ys) = callRefs xs ++ callRefs ys := by
  simp [callRefs]

/-- Nothing but links matters to a selection of links. -/
theorem filterMap_filter_isLink {β : Type} {f : ModelPart → Option β}
    (hf : ∀ p, p.isLink = false → f p = none) (parts : List ModelPart) :
    (parts.filter ModelPart.isLink).filterMap f = parts.filterMap f := by
  induction parts with
  | nil => rfl
  | cons p parts ih =>
      cases hp : p.isLink with
      | true => rw [List.filter_cons_of_pos hp, List.filterMap_cons, List.filterMap_cons, ih]
      | false =>
          rw [List.filter_cons_of_neg (by simp [hp]), ih, List.filterMap_cons_none (hf p hp)]

theorem filterMap_call?_linkParts (nodes : List MessageNode) :
    (linkParts nodes).filterMap ModelPart.call? = (partsOf nodes).filterMap ModelPart.call? := by
  refine filterMap_filter_isLink ?_ _
  intro p hp
  cases p <;> simp_all [ModelPart.isLink, ModelPart.call?]

theorem filterMap_link?_linkParts (nodes : List MessageNode) :
    (linkParts nodes).filterMap ModelPart.link? = (partsOf nodes).filterMap ModelPart.link? := by
  refine filterMap_filter_isLink ?_ _
  intro p hp
  cases p <;> simp_all [ModelPart.isLink, ModelPart.link?]

theorem Follows.append {xs ys : List ModelPart} (hxs : Follows xs)
    (hys : ∀ r, .result r ∈ ys → ∃ c, .call c ∈ xs ∧ c.ref = r.callRef ∧
      c.sourceId = r.sourceId) : Follows (xs ++ ys) := by
  intro k r hk
  rcases lt_or_ge k xs.length with hlt | hge
  · rw [List.getElem?_append_left hlt] at hk
    obtain ⟨j, c, hjk, hj, hc⟩ := hxs k r hk
    exact ⟨j, c, hjk, by rw [List.getElem?_append_left (hjk.trans hlt), hj], hc⟩
  · rw [List.getElem?_append_right hge] at hk
    obtain ⟨c, hc, href⟩ := hys r (List.mem_of_getElem? hk)
    obtain ⟨j, hj⟩ := List.mem_iff_getElem?.mp hc
    have hjl := (List.getElem?_eq_some_iff.mp hj).1
    exact ⟨j, c, hjl.trans_le hge, by rw [List.getElem?_append_left hjl, hj], href⟩

/-! ## 2.  References -/

theorem toList_callRef (i j : Nat) :
    (callRef i j).toList = 'c' :: (Nat.toDigits 10 i ++ '_' :: Nat.toDigits 10 j) := by
  simp [callRef, toString, Nat.repr]

/-- A reference determines the position of its call. -/
theorem callRef_inj {i j i' j' : Nat} (h : callRef i j = callRef i' j') : i = i' ∧ j = j' := by
  have hl := congrArg String.toList h
  rw [toList_callRef, toList_callRef, List.cons.injEq] at hl
  have hdigits : ∀ (n : Nat) (l : List Char),
      (Nat.toDigits 10 n ++ '_' :: l).takeWhile Char.isDigit = Nat.toDigits 10 n := by
    intro n l
    rw [List.takeWhile_append_of_pos]
    · simp
    · intro c hc
      exact Nat.isDigit_of_mem_toDigits (by decide) (by decide) hc
  have hi : Nat.toDigits 10 i = Nat.toDigits 10 i' := by
    rw [← hdigits i, hl.2, hdigits]
  have hj := hl.2
  rw [hi, List.append_cancel_left_eq, List.cons.injEq] at hj
  exact ⟨Json.toDigits_injective hi, Json.toDigits_injective hj.2⟩

/-! ## 3.  Parsing keeps the links -/

/-- The node is a tool result alone, or has no result. -/
def MessageNode.Shaped (node : MessageNode) : Prop :=
  (node.role = "tool" ∧ ∃ r, node.parts = [.result r]) ∨
    (node.role ≠ "tool" ∧ ∀ p ∈ node.parts, p.result? = none)

/-- What holds after the messages before `n` have been parsed. -/
structure Linked (s : ParseState) (n : Nat) : Prop where
  shaped : ∀ node ∈ s.nodes, node.Shaped
  follows : Follows (linkParts s.nodes)
  nodup : (callRefs (linkParts s.nodes)).Nodup
  numbered : ∀ ref ∈ callRefs (linkParts s.nodes), ∃ i j, i < n ∧ ref = callRef i j
  stored : ∀ ref c, Dict.get? s.callsByRef ref = some c →
    .call c ∈ linkParts s.nodes ∧ c.ref = ref

theorem parseCall_eq_ok {s s' : ParseState} {raw : PyValue} {node index : Nat}
    {call : ToolCallPart} (h : parseCall P s raw node index = .ok (call, s')) :
    call.ref = callRef node index ∧ s'.nodes = s.nodes ∧
      s'.callsByRef = Dict.set s.callsByRef call.ref call := by
  unfold parseCall at h
  split at h
  · split at h
    · dsimp only at h
      split at h
      · exact absurd h (by simp)
      split at h
      · exact absurd h (by simp)
      split at h
      · exact absurd h (by simp)
      · obtain ⟨rfl, rfl⟩ := Prod.mk.inj (Except.ok.inj h)
        exact ⟨rfl, rfl, rfl⟩
    · exact absurd h (by simp)
  · exact absurd h (by simp)

theorem parseCalls_eq_ok {s s' : ParseState} {raws : List PyValue} {node index : Nat}
    {calls : List ToolCallPart} (h : parseCalls P s raws node index = .ok (calls, s')) :
    calls.map (·.ref) = (List.range' index calls.length).map (callRef node) ∧
      s'.nodes = s.nodes ∧
      ∀ ref c, Dict.get? s'.callsByRef ref = some c →
        Dict.get? s.callsByRef ref = some c ∨ (c ∈ calls ∧ c.ref = ref) := by
  induction raws generalizing s s' index calls with
  | nil =>
      obtain ⟨rfl, rfl⟩ := Prod.mk.inj (Except.ok.inj h)
      exact ⟨rfl, rfl, fun _ _ => Or.inl⟩
  | cons raw raws ih =>
      rw [parseCalls] at h
      cases hcall : parseCall P s raw node index with
      | error e => simp [hcall] at h
      | ok q =>
          obtain ⟨call, s₁⟩ := q
          rw [hcall] at h
          dsimp only at h
          cases hcalls : parseCalls P s₁ raws node (index + 1) with
          | error e => simp [hcalls] at h
          | ok q =>
              obtain ⟨rest, s₂⟩ := q
              rw [hcalls] at h
              obtain ⟨rfl, rfl⟩ := Prod.mk.inj (Except.ok.inj h)
              obtain ⟨href, hnodes, hby⟩ := parseCall_eq_ok hcall
              obtain ⟨hrefs, hnodes', hstored⟩ := ih hcalls
              refine ⟨?_, hnodes'.trans hnodes, ?_⟩
              · rw [List.map_cons, hrefs, href, List.length_cons, List.range'_succ,
                  List.map_cons]
              · intro ref c hc
                rcases hstored ref c hc with hc | ⟨hmem, hc⟩
                · rw [hby] at hc
                  by_cases hr : call.ref = ref
                  · subst hr
                    rw [Dict.get?_set_self, Option.some.injEq] at hc
                    subst hc
                    exact Or.inr ⟨List.mem_cons_self, rfl⟩
                  · rw [Dict.get?_set_of_ne hr] at hc
                    exact Or.inl hc
                · exact Or.inr ⟨List.mem_cons_of_mem _ hmem, hc⟩

/-- Content holds text and images only. -/
theorem blockPart_isLink {block : PyValue} {node index : Nat} {part : ModelPart}
    (h : blockPart P block node index = .ok part) : part.isLink = false := by
  have himage : ∀ {raw : PyValue} {mediaType : String} {k : _ → Except Raised ModelPart},
      (∀ o, k (some o) = .ok (.image o [])) → (∃ e, k none = .error e) →
        (coerceImageObservation P raw "transcript" mediaType >>= k) = .ok part →
          part.isLink = false := by
    intro raw mediaType k hsome hnone he
    obtain ⟨o, -, he⟩ := except_bind_eq_ok.mp he
    cases o with
    | none =>
        obtain ⟨e, hnone⟩ := hnone
        exact absurd (hnone.symm.trans he) (by simp)
    | some o =>
        obtain rfl := Except.ok.inj ((hsome o).symm.trans he)
        rfl
  unfold blockPart at h
  split at h
  · obtain rfl := Except.ok.inj h
    rfl
  · dsimp only at h
    split at h
    · obtain rfl := Except.ok.inj h
      rfl
    split at h
    · exact himage (fun _ => rfl) ⟨_, rfl⟩ h
    split at h
    · exact himage (fun _ => rfl) ⟨_, rfl⟩ h
    · exact absurd h (by simp [throw, throwThe, MonadExceptOf.throw])
  · exact absurd h (by simp)

theorem blockParts_isLink {blocks : List PyValue} {node index : Nat} {parts : List ModelPart}
    (h : blockParts P blocks node index = .ok parts) : ∀ p ∈ parts, p.isLink = false := by
  induction blocks generalizing index parts with
  | nil =>
      obtain rfl := Except.ok.inj h
      simp
  | cons block blocks ih =>
      rw [blockParts] at h
      obtain ⟨part, hpart, h⟩ := except_bind_eq_ok.mp h
      obtain ⟨rest, hrest, h⟩ := except_bind_eq_ok.mp h
      obtain rfl := Except.ok.inj h
      intro p hp
      rcases List.mem_cons.mp hp with rfl | hp
      · exact blockPart_isLink hpart
      · exact ih hrest p hp

theorem textOrImageParts_isLink {content : Option PyValue} {node : Nat} {role : String}
    {parts : List ModelPart} (h : textOrImageParts P content node role = .ok parts) :
    ∀ p ∈ parts, p.isLink = false := by
  unfold textOrImageParts at h
  split at h
  · obtain rfl := Except.ok.inj h
    simp
  · obtain rfl := Except.ok.inj h
    simp [ModelPart.isLink]
  · exact blockParts_isLink h
  · exact absurd h (by simp)

/-- What a message that is no tool result adds: one node, whose links are its calls. -/
theorem parseContent_eq_ok {s s' : ParseState} {message : PyDict} {role : String} {n : Nat}
    (h : parseContent P s message role n = .ok s') :
    ∃ (parts : List ModelPart) (calls : List ToolCallPart), s'.nodes = s.nodes ++
        [⟨s!"m{n}", role, parts ++ calls.map .call, n⟩] ∧
      (∀ p ∈ parts, p.isLink = false) ∧
      calls.map (·.ref) = (List.range' 0 calls.length).map (callRef n) ∧
      ∀ ref c, Dict.get? s'.callsByRef ref = some c →
        Dict.get? s.callsByRef ref = some c ∨ (c ∈ calls ∧ c.ref = ref) := by
  obtain ⟨parts, hparts, h⟩ := except_bind_eq_ok.mp h
  obtain ⟨raws, -, h⟩ := except_bind_eq_ok.mp h
  obtain ⟨⟨calls, s₁⟩, hcalls, h⟩ := except_bind_eq_ok.mp h
  obtain rfl := Except.ok.inj h
  obtain ⟨hrefs, hnodes, hstored⟩ := parseCalls_eq_ok hcalls
  exact ⟨parts, calls, by rw [hnodes], textOrImageParts_isLink hparts, hrefs, hstored⟩

/-- What a tool result adds: one node, which holds a result of a known call. -/
theorem parseResult_eq_ok {s s' : ParseState} {message : PyDict} {n : Nat}
    (h : parseResult P s message n = .ok s') :
    ∃ (r : ToolResultPart) (c : ToolCallPart),
      s'.nodes = s.nodes ++ [⟨s!"m{n}", "tool", [.result r], n⟩] ∧
      s'.callsByRef = s.callsByRef ∧ Dict.get? s.callsByRef r.callRef = some c ∧
      c.sourceId = r.sourceId := by
  obtain ⟨ref, href, h⟩ := except_bind_eq_ok.mp h
  split at h
  · exact absurd h (by simp [throw, throwThe, MonadExceptOf.throw])
  · rename_i c hc
    obtain ⟨output, -, h⟩ := except_bind_eq_ok.mp h
    obtain rfl := Except.ok.inj h
    exact ⟨_, c, rfl, rfl, hc, rfl⟩

theorem filter_isLink_content {parts : List ModelPart} (h : ∀ p ∈ parts, p.isLink = false)
    (calls : List ToolCallPart) :
    (parts ++ calls.map ModelPart.call).filter ModelPart.isLink = calls.map ModelPart.call := by
  rw [List.filter_append, List.filter_eq_nil_iff.mpr (by simpa using h), List.nil_append]
  refine List.filter_eq_self.mpr ?_
  intro p hp
  obtain ⟨c, -, rfl⟩ := List.mem_map.mp hp
  rfl

theorem callRefs_map_call (calls : List ToolCallPart) :
    callRefs (calls.map ModelPart.call) = calls.map (·.ref) := by
  unfold callRefs
  rw [List.filterMap_map]
  congr 1
  exact List.filterMap_some

theorem nodup_callRefs (n k m : Nat) : ((List.range' k m).map (callRef n)).Nodup :=
  (List.nodup_range' 1).map fun _ _ h => (callRef_inj h).2

theorem Linked.content {s s' : ParseState} {message : PyDict} {role : String} {n : Nat}
    (hs : Linked s n) (hrole : role ≠ "tool")
    (h : parseContent P s message role n = .ok s') : Linked s' (n + 1) := by
  obtain ⟨parts, calls, hnodes, hparts, hrefs, hstored⟩ := parseContent_eq_ok h
  have hlinks : linkParts s'.nodes = linkParts s.nodes ++ calls.map .call := by
    rw [hnodes, linkParts_append, linkParts_singleton, filter_isLink_content hparts]
  constructor
  · intro node hnode
    rw [hnodes, List.mem_append, List.mem_singleton] at hnode
    rcases hnode with hnode | rfl
    · exact hs.shaped node hnode
    · refine Or.inr ⟨hrole, fun p hp => ?_⟩
      rcases List.mem_append.mp hp with hp | hp
      · have hlink := hparts p hp
        cases p <;> simp_all [ModelPart.isLink, ModelPart.result?]
      · obtain ⟨c, -, rfl⟩ := List.mem_map.mp hp
        rfl
  · rw [hlinks]
    refine hs.follows.append ?_
    intro r hr
    obtain ⟨c, -, hc⟩ := List.mem_map.mp hr
    exact absurd hc (by simp)
  · rw [hlinks, callRefs_append, callRefs_map_call, hrefs]
    refine List.Nodup.append hs.nodup (nodup_callRefs n _ _) ?_
    intro ref hold hnew
    obtain ⟨i, j, hi, rfl⟩ := hs.numbered ref hold
    obtain ⟨k, -, hk⟩ := List.mem_map.mp hnew
    have := (callRef_inj hk).1
    omega
  · intro ref href
    rw [hlinks, callRefs_append, callRefs_map_call, hrefs, List.mem_append] at href
    rcases href with href | href
    · obtain ⟨i, j, hi, hij⟩ := hs.numbered ref href
      exact ⟨i, j, by omega, hij⟩
    · obtain ⟨k, -, rfl⟩ := List.mem_map.mp href
      exact ⟨n, k, by omega, rfl⟩
  · intro ref c hc
    rw [hlinks, List.mem_append]
    rcases hstored ref c hc with hc | ⟨hmem, href⟩
    · obtain ⟨hmem, href⟩ := hs.stored ref c hc
      exact ⟨Or.inl hmem, href⟩
    · exact ⟨Or.inr (List.mem_map_of_mem hmem), href⟩

theorem Linked.result {s s' : ParseState} {message : PyDict} {n : Nat} (hs : Linked s n)
    (h : parseResult P s message n = .ok s') : Linked s' (n + 1) := by
  obtain ⟨r, c, hnodes, hby, hc, hsource⟩ := parseResult_eq_ok h
  have hlinks : linkParts s'.nodes = linkParts s.nodes ++ [.result r] := by
    rw [hnodes, linkParts_append, linkParts_singleton]
    rfl
  have hrefs : callRefs (linkParts s'.nodes) = callRefs (linkParts s.nodes) := by
    rw [hlinks, callRefs_append]
    exact List.append_nil _
  obtain ⟨hmem, href⟩ := hs.stored r.callRef c hc
  constructor
  · intro node hnode
    rw [hnodes, List.mem_append, List.mem_singleton] at hnode
    rcases hnode with hnode | rfl
    · exact hs.shaped node hnode
    · exact Or.inl ⟨rfl, r, rfl⟩
  · rw [hlinks]
    refine hs.follows.append ?_
    intro r' hr'
    obtain rfl : r' = r := by simpa using hr'
    exact ⟨c, hmem, href, hsource⟩
  · rw [hrefs]
    exact hs.nodup
  · intro ref hmemref
    rw [hrefs] at hmemref
    obtain ⟨i, j, hi, hij⟩ := hs.numbered ref hmemref
    exact ⟨i, j, by omega, hij⟩
  · intro ref c' hc'
    rw [hby] at hc'
    obtain ⟨hmem', href'⟩ := hs.stored ref c' hc'
    exact ⟨by rw [hlinks]; exact List.mem_append_left _ hmem', href'⟩

theorem Linked.message {s s' : ParseState} {raw : PyValue} {n : Nat} (hs : Linked s n)
    (h : parseMessage P s raw n = .ok s') : Linked s' (n + 1) := by
  unfold parseMessage at h
  split at h
  · dsimp only at h
    split at h
    · exact absurd h (by simp)
    split at h
    · exact hs.result h
    · rename_i hrole
      exact hs.content hrole h
  · exact absurd h (by simp)

theorem linked_init : Linked .init 0 where
  shaped := by simp [ParseState.init]
  follows := by
    intro k r h
    simp [ParseState.init, linkParts, partsOf] at h
  nodup := List.nodup_nil
  numbered := by simp [ParseState.init, linkParts, partsOf, callRefs]
  stored := by simp [ParseState.init]

/-- The loop over messages, by induction on the messages. -/
theorem linked_of_parseMessages {s s' : ParseState} {raws : List PyValue} {n : Nat}
    (hs : Linked s n) (h : parseMessages P s raws n = .ok s') : Linked s' (n + raws.length) := by
  induction raws generalizing s n with
  | nil =>
      obtain rfl := Except.ok.inj h
      exact hs
  | cons raw raws ih =>
      rw [parseMessages] at h
      cases hm : parseMessage P s raw n with
      | error e => simp [hm] at h
      | ok s₁ =>
          rw [hm] at h
          have hlinked := ih (hs.message hm) h
          rwa [Nat.add_assoc, Nat.add_comm 1] at hlinked

/-! ## 4.  Placing images moves no link -/

theorem linkParts_cons (node : MessageNode) (nodes : List MessageNode) :
    linkParts (node :: nodes) = node.parts.filter ModelPart.isLink ++ linkParts nodes := by
  simp [linkParts, partsOf]

theorem linkParts_insertIdx {node : MessageNode} (hnode : node.parts.filter ModelPart.isLink = [])
    (nodes : List MessageNode) (i : Nat) :
    linkParts (nodes.insertIdx i node) = linkParts nodes := by
  induction nodes generalizing i with
  | nil =>
      cases i with
      | zero =>
          rw [List.insertIdx_zero, linkParts_cons, hnode]
          rfl
      | succ i => rfl
  | cons n nodes ih =>
      cases i with
      | zero => rw [List.insertIdx_zero, linkParts_cons, hnode, List.nil_append]
      | succ i => rw [List.insertIdx_succ_cons, linkParts_cons, linkParts_cons, ih]

theorem linkParts_modify_image {nodes : List MessageNode} {i : Nat} {o : ImageObservation} :
    linkParts (nodes.modify i fun n => { n with parts := n.parts ++ [.image o []] }) =
      linkParts nodes := by
  induction nodes generalizing i with
  | nil => simp
  | cons node nodes ih =>
      cases i with
      | zero => simp [linkParts_cons, ModelPart.isLink]
      | succ i => rw [List.modify_succ_cons, linkParts_cons, linkParts_cons, ih]

/-- An image moves no link, and stands in a node that holds no result. -/
theorem placeImage_eq_ok {nodes nodes' : List MessageNode} {o : ImageObservation}
    (h : placeImage nodes o = .ok nodes') :
    linkParts nodes' = linkParts nodes ∧
      ((∀ n ∈ nodes, n.Shaped) → ∀ n ∈ nodes', n.Shaped) := by
  have himage : ∀ (id : String) (refs : List String),
      (⟨id, "user", [.image o refs], -1⟩ : MessageNode).Shaped := by
    intro id refs
    exact Or.inr ⟨by simp, by simp [ModelPart.result?]⟩
  unfold placeImage at h
  split at h
  · split at h
    · exact absurd h (by simp)
    · dsimp only at h
      split at h
      · exact absurd h (by simp)
      · obtain rfl := Except.ok.inj h
        constructor
        · exact linkParts_insertIdx (by simp [ModelPart.isLink]) _ _
        · intro hs n hn
          rcases List.eq_or_mem_of_mem_insertIdx hn with rfl | hn
          · exact himage _ _
          · exact hs n hn
  · split at h
    · obtain rfl := Except.ok.inj h
      constructor
      · rw [linkParts_append, linkParts_singleton]
        exact List.append_nil _
      · intro hs n hn
        rcases List.mem_append.mp hn with hn | hn
        · exact hs n hn
        · rw [List.mem_singleton.mp hn]
          exact himage _ _
    · obtain rfl := Except.ok.inj h
      rename_i i hi
      obtain ⟨hlt, huser, -⟩ := List.findIdx?_eq_some_iff_getElem.mp hi
      rw [List.getElem_reverse, decide_eq_true_eq] at huser
      refine ⟨linkParts_modify_image, fun hs n hn => ?_⟩
      obtain ⟨k, hk⟩ := List.mem_iff_getElem?.mp hn
      rw [List.getElem?_modify] at hk
      obtain ⟨m, hm, rfl⟩ := Option.map_eq_some_iff.mp hk
      have hshaped := hs m (List.mem_of_getElem? hm)
      by_cases hki : nodes.length - 1 - i = k
      · rw [if_pos hki]
        obtain ⟨hkl, hmk⟩ := List.getElem?_eq_some_iff.mp hm
        have hrole : m.role = "user" := by
          rw [← hmk, ← huser]
          congr 2
          exact hki.symm
        rcases hshaped with ⟨htool, -⟩ | ⟨hrole', hparts⟩
        · rw [hrole] at htool
          exact absurd htool (by decide)
        · refine Or.inr ⟨hrole', fun p hp => ?_⟩
          rcases List.mem_append.mp hp with hp | hp
          · exact hparts p hp
          · rw [List.mem_singleton.mp hp]
            rfl
      · rw [if_neg hki]
        exact hshaped

theorem placeImages_eq_ok {nodes nodes' : List MessageNode} {os : List ImageObservation}
    (h : placeImages nodes os = .ok nodes') :
    linkParts nodes' = linkParts nodes ∧
      ((∀ n ∈ nodes, n.Shaped) → ∀ n ∈ nodes', n.Shaped) := by
  induction os generalizing nodes with
  | nil =>
      obtain rfl := Except.ok.inj h
      exact ⟨rfl, id⟩
  | cons o os ih =>
      rw [placeImages] at h
      cases ho : placeImage nodes o with
      | error e => simp [ho] at h
      | ok nodes₁ =>
          rw [ho] at h
          obtain ⟨hlinks, hshaped⟩ := placeImage_eq_ok ho
          obtain ⟨hlinks', hshaped'⟩ := ih h
          exact ⟨hlinks'.trans hlinks, fun hs => hshaped' (hshaped hs)⟩

/-! ## 5.  What is accepted is linked -/

/-- A graph whose links are sound. -/
structure MessageGraph.Sound (g : MessageGraph) : Prop where
  shaped : ∀ node ∈ g.messages, node.Shaped
  follows : Follows (linkParts g.messages)
  nodup : (g.calls.map (·.ref)).Nodup

/-- **An accepted graph is linked.** -/
theorem sound_of_buildMessageGraph {messages : List PyValue} {images : List ImageInput}
    {g : MessageGraph} (h : buildMessageGraph P messages images = .ok g) : g.Sound := by
  obtain ⟨s, hs, h⟩ := except_bind_eq_ok.mp h
  split at h
  · exact absurd h (by simp [throw, throwThe, MonadExceptOf.throw])
  obtain ⟨os, -, h⟩ := except_bind_eq_ok.mp h
  obtain ⟨nodes, hnodes, h⟩ := except_bind_eq_ok.mp h
  obtain rfl := Except.ok.inj h
  have hlinked := linked_of_parseMessages linked_init hs
  obtain ⟨hlinks, hshaped⟩ := placeImages_eq_ok hnodes
  constructor
  · exact hshaped hlinked.shaped
  · rw [hlinks]
    exact hlinked.follows
  · show (((partsOf nodes).filterMap ModelPart.call?).map (·.ref)).Nodup
    rw [← filterMap_call?_linkParts, hlinks]
    exact hlinked.nodup

end ModelRuntime
end VariantOne
