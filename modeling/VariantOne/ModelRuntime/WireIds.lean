import VariantOne.Lib.Fallback
import VariantOne.ModelRuntime.Links

/-!
# Wire ids

Every renderer writes the links of the graph in order, each under the wire id of
its call (`links_of_render`).  So what a provider sees is decided by the wire ids
alone: results are attached to their own calls, and calls can be told apart
exactly when `_wire_call_ids` is injective.

That function gives every call its cleaned id, or, when an earlier call has it,
the id with the call's ordinal appended.  The appended id is cleaned again but
not looked up again, and cleaning cuts it at 160 characters.  `Fallback` says
what follows: the ids are distinct exactly when no call that repeats an id falls
back on an id that is in use (`wireCallIds_injective_iff`).
-/

namespace VariantOne
namespace ModelRuntime

variable {P : ProjectionHost} {provider : Provider}

/-! ## 1.  The ids as names with a fallback -/

variable (P provider) in
/-- The cleaned id and the suffixed id of every call, from the ordinal `n` on. -/
def wireNames (n : Nat) : List ToolCallPart → List (String × String)
  | [] => []
  | call :: calls =>
      (baseId P provider call n, suffixedId (baseId P provider call n) n) ::
        wireNames (n + 1) calls

theorem length_wireNames (n : Nat) (calls : List ToolCallPart) :
    (wireNames P provider n calls).length = calls.length := by
  induction calls generalizing n with
  | nil => rfl
  | cons call calls ih => rw [wireNames, List.length_cons, ih, List.length_cons]

/-- `_wire_call_ids` assigns names with a fallback. -/
theorem wireCallIdsFrom_eq_ok {used : List String} {out ids : List (String × String)} {n : Nat}
    {calls : List ToolCallPart} (hrefs : (calls.map (·.ref)).Nodup)
    (hout : ∀ ref ∈ calls.map (·.ref), ref ∉ Dict.keys out)
    (h : wireCallIdsFrom P provider used out n calls = .ok ids) :
    ids = out ++ (calls.map (·.ref)).zip
      (Fallback.assign used (wireNames P provider n calls)) := by
  induction calls generalizing used out n with
  | nil =>
      obtain rfl := Except.ok.inj h
      simp
  | cons call calls ih =>
      rw [List.map_cons, List.nodup_cons] at hrefs
      have hset : ∀ id, Dict.set out call.ref id = out ++ [(call.ref, id)] := by
        intro id
        exact Dict.set_of_notMem (hout call.ref (by simp))
      have hout' : ∀ id, ∀ ref ∈ calls.map (·.ref), ref ∉ Dict.keys (Dict.set out call.ref id) := by
        intro id ref href
        rw [hset, Dict.keys_append, List.mem_append, not_or]
        refine ⟨hout ref (List.mem_cons_of_mem _ href), ?_⟩
        rintro hmem
        obtain rfl : ref = call.ref := by simpa using hmem
        exact hrefs.1 href
      rw [wireNames, Fallback.assign, List.map_cons, List.zip_cons_cons]
      rw [wireCallIdsFrom] at h
      dsimp only at h
      split at h
      · rename_i htaken
        split at h
        · exact absurd h (by simp)
        · rw [ih hrefs.2 (hout' _) h, hset, List.append_assoc, if_pos htaken]
          rfl
      · rename_i hfree
        rw [ih hrefs.2 (hout' _) h, hset, List.append_assoc, if_neg hfree]
        rfl

/-- Looking keys up in a zipped dictionary is injective when its values are
distinct. -/
theorem zip_injective_iff {ks vs : List String} (hks : ks.Nodup) (hlen : ks.length = vs.length) :
    (∀ k ∈ ks, ∀ k' ∈ ks, Dict.get? (ks.zip vs) k = Dict.get? (ks.zip vs) k' → k = k') ↔
      vs.Nodup := by
  induction ks generalizing vs with
  | nil =>
      obtain rfl := List.length_eq_zero_iff.mp hlen.symm
      simp
  | cons k ks ih =>
      cases vs with
      | nil => simp at hlen
      | cons v vs =>
          rw [List.nodup_cons] at hks
          have hlen' : ks.length = vs.length := by simpa using hlen
          have htail : ∀ k' ∈ ks, Dict.get? ((k, v) :: ks.zip vs) k' =
              Dict.get? (ks.zip vs) k' := by
            intro k' hk'
            have hne : k ≠ k' := by
              rintro rfl
              exact hks.1 hk'
            rw [Dict.get?_cons, if_neg hne]
          have hhead : Dict.get? ((k, v) :: ks.zip vs) k = some v := by
            rw [Dict.get?_cons, if_pos rfl]
          have hkeys : Dict.keys (ks.zip vs) = ks := by
            unfold Dict.keys
            exact List.map_fst_zip hlen'.le
          have hwf : Dict.WF (ks.zip vs) := by
            unfold Dict.WF
            rw [hkeys]
            exact hks.2
          have hval : v ∈ vs ↔ ∃ k' ∈ ks, Dict.get? (ks.zip vs) k' = some v := by
            constructor
            · intro hv
              obtain ⟨i, hi, hvi⟩ := List.getElem_of_mem hv
              have hmem : (ks[i], v) ∈ ks.zip vs := by
                rw [List.mem_iff_getElem]
                refine ⟨i, by simp; omega, ?_⟩
                rw [List.getElem_zip, hvi]
              exact ⟨ks[i], List.getElem_mem _, hwf.get?_eq_some_iff.mpr hmem⟩
            · rintro ⟨k', -, hk'⟩
              exact (List.of_mem_zip (Dict.mem_of_get? hk')).2
          rw [List.zip_cons_cons, List.nodup_cons, ← ih hks.2 hlen']
          constructor
          · intro h
            constructor
            · intro hv
              obtain ⟨k', hk', hget⟩ := hval.mp hv
              have hkk := h k (by simp) k' (by simp [hk']) (by rw [hhead, htail k' hk', hget])
              exact hks.1 (hkk ▸ hk')
            · intro a ha b hb hab
              refine h a (List.mem_cons_of_mem _ ha) b (List.mem_cons_of_mem _ hb) ?_
              rw [htail a ha, htail b hb, hab]
          · rintro ⟨hv, h⟩ a ha b hb hab
            rcases List.mem_cons.mp ha with rfl | ha'
            · rcases List.mem_cons.mp hb with rfl | hb'
              · rfl
              · rw [hhead, htail b hb'] at hab
                exact absurd (hval.mpr ⟨b, hb', hab.symm⟩) hv
            · rcases List.mem_cons.mp hb with rfl | hb'
              · rw [hhead, htail a ha'] at hab
                exact absurd (hval.mpr ⟨a, ha', hab⟩) hv
              · rw [htail a ha', htail b hb'] at hab
                exact h a ha' b hb' hab

/-- **When the wire ids are injective.** -/
theorem wireCallIds_injective_iff {g : MessageGraph} {ids : List (String × String)}
    (hg : g.Sound) (h : wireCallIds P g provider = .ok ids) :
    (∀ c ∈ g.calls, ∀ c' ∈ g.calls, Dict.get? ids c.ref = Dict.get? ids c'.ref → c = c') ↔
      Fallback.ClashFree (wireNames P provider 0 g.calls) := by
  have hids := wireCallIdsFrom_eq_ok hg.nodup (by simp) h
  rw [List.nil_append] at hids
  have hlen : (g.calls.map (·.ref)).length =
      (Fallback.assign [] (wireNames P provider 0 g.calls)).length := by
    rw [Fallback.length_assign, length_wireNames, List.length_map]
  rw [← Fallback.assign_nodup_iff, ← zip_injective_iff hg.nodup hlen, ← hids]
  constructor
  · intro hinj k hk k' hk' hkk
    obtain ⟨c, hc, rfl⟩ := List.mem_map.mp hk
    obtain ⟨c', hc', rfl⟩ := List.mem_map.mp hk'
    rw [hinj c hc c' hc' hkk]
  · intro hinj c hc c' hc' hcc
    have href := hinj c.ref (List.mem_map_of_mem hc) c'.ref (List.mem_map_of_mem hc') hcc
    exact List.inj_on_of_nodup_map hg.nodup hc hc' href

/-! ## 2.  Every renderer writes the links in order -/

/-- The wire id of a reference. -/
def idOf (ids : List (String × String)) (ref : String) : String := (Dict.get? ids ref).getD ""

theorem wireId_eq_ok {ids : List (String × String)} {ref id : String}
    (h : wireId ids ref = .ok id) : id = idOf ids ref := by
  unfold wireId at h
  unfold idOf
  split at h
  · rename_i hget
    rw [hget, ← Except.ok.inj h]
    rfl
  · exact absurd h (by simp)

/-- The links of some parts, under their wire ids. -/
def wireLinks (ids : List (String × String)) (parts : List ModelPart) : List (Link String) :=
  (parts.filterMap ModelPart.link?).map (Link.map (idOf ids))

theorem wireLinks_append (ids : List (String × String)) (xs ys : List ModelPart) :
    wireLinks ids (xs ++ ys) = wireLinks ids xs ++ wireLinks ids ys := by
  simp [wireLinks]

theorem wireLinks_cons (ids : List (String × String)) (p : ModelPart) (parts : List ModelPart) :
    wireLinks ids (p :: parts) = wireLinks ids [p] ++ wireLinks ids parts :=
  wireLinks_append ids [p] parts

theorem partsOf_cons (node : MessageNode) (nodes : List MessageNode) :
    partsOf (node :: nodes) = node.parts ++ partsOf nodes := rfl

/-- The blocks of a list of parts carry its links when those of each part do. -/
theorem blocksOf_links {β : Type} {f : ModelPart → Except Raised (List β)}
    {link : β → Option (Link String)} {ids : List (String × String)}
    (hf : ∀ p blocks, f p = .ok blocks → blocks.filterMap link = wireLinks ids [p])
    {parts : List ModelPart} {blocks : List β} (h : blocksOf f parts = .ok blocks) :
    blocks.filterMap link = wireLinks ids parts := by
  induction parts generalizing blocks with
  | nil =>
      obtain rfl := Except.ok.inj h
      rfl
  | cons p parts ih =>
      rw [blocksOf] at h
      obtain ⟨first, hfirst, h⟩ := except_bind_eq_ok.mp h
      obtain ⟨rest, hrest, h⟩ := except_bind_eq_ok.mp h
      obtain rfl := Except.ok.inj h
      rw [List.filterMap_append, hf p first hfirst, ih hrest, ← wireLinks_cons]

/-- Merging keeps the blocks in order. -/
theorem flatMap_mergeProviderMessage {β : Type} (out : List (ProviderMessage β)) (role : String)
    (blocks : List β) :
    (mergeProviderMessage out role blocks).flatMap (·.blocks) =
      out.flatMap (·.blocks) ++ blocks := by
  unfold mergeProviderMessage
  split
  · rename_i hempty
    rw [List.isEmpty_iff.mp hempty, List.append_nil]
  · split
    · rename_i last hlast
      split
      · have hout : out.dropLast ++ [last] = out := List.dropLast_append_getLast? last hlast
        conv_rhs => rw [← hout]
        simp
      · simp
    · simp

/-- A system node has text only, so no links. -/
theorem systemTexts_links {name : String} {index : Int} {parts : List ModelPart}
    {texts : List String} (h : systemTexts name index parts = .ok texts)
    (ids : List (String × String)) : wireLinks ids parts = [] := by
  induction parts generalizing texts with
  | nil => rfl
  | cons p parts ih =>
      cases p with
      | text t =>
          rw [systemTexts] at h
          obtain ⟨rest, hrest, -⟩ := except_bind_eq_ok.mp h
          rw [wireLinks_cons, ih hrest]
          rfl
      | image o refs => simp [systemTexts] at h
      | call c => simp [systemTexts] at h
      | result r => simp [systemTexts] at h

theorem openaiCalls_links {ids : List (String × String)} {calls : List ToolCallPart}
    {out : List OpenAICall} (h : openaiCalls P ids calls = .ok out) :
    out.map (fun c => Link.call c.id) = calls.map fun c => Link.call (idOf ids c.ref) := by
  induction calls generalizing out with
  | nil =>
      obtain rfl := Except.ok.inj h
      rfl
  | cons c calls ih =>
      rw [openaiCalls] at h
      obtain ⟨id, hid, h⟩ := except_bind_eq_ok.mp h
      obtain ⟨arguments, -, h⟩ := except_bind_eq_ok.mp h
      obtain ⟨rest, hrest, h⟩ := except_bind_eq_ok.mp h
      obtain rfl := Except.ok.inj h
      rw [List.map_cons, List.map_cons, ih hrest, wireId_eq_ok hid]

/-- Without results, the links are the calls. -/
theorem wireLinks_of_no_result {ids : List (String × String)} {parts : List ModelPart}
    (h : parts.filterMap ModelPart.result? = []) :
    wireLinks ids parts =
      (parts.filterMap ModelPart.call?).map fun c => Link.call (idOf ids c.ref) := by
  induction parts with
  | nil => rfl
  | cons p parts ih =>
      rw [wireLinks_cons]
      cases p with
      | text t => exact ih h
      | image o refs => exact ih h
      | call c =>
          rw [ih h]
          rfl
      | result r => simp [ModelPart.result?] at h

theorem openaiMessage_links {ids : List (String × String)} {node : MessageNode}
    {message : OpenAIMessage} (hnode : node.Shaped)
    (h : openaiMessage P ids node = .ok message) :
    message.links = wireLinks ids node.parts := by
  unfold openaiMessage at h
  dsimp only at h
  rcases hnode with ⟨-, r, hr⟩ | ⟨-, hnone⟩
  · rw [hr] at h ⊢
    obtain ⟨id, hid, h⟩ := except_bind_eq_ok.mp h
    obtain rfl := Except.ok.inj h
    rw [wireId_eq_ok hid]
    rfl
  · have hresults : node.parts.filterMap ModelPart.result? = [] :=
      List.filterMap_eq_nil_iff.mpr hnone
    rw [hresults] at h
    dsimp only at h
    split at h
    · exact absurd h (by simp)
    · obtain ⟨content, -, h⟩ := except_bind_eq_ok.mp h
      split at h
      · exact absurd h (by simp [throw, throwThe, MonadExceptOf.throw])
      · obtain ⟨calls, hcalls, h⟩ := except_bind_eq_ok.mp h
        obtain rfl := Except.ok.inj h
        rw [wireLinks_of_no_result hresults, ← openaiCalls_links hcalls]
        rfl

theorem openaiMessages_links {ids : List (String × String)} {nodes : List MessageNode}
    {out : List OpenAIMessage} (hnodes : ∀ node ∈ nodes, node.Shaped)
    (h : openaiMessages P ids nodes = .ok out) :
    out.flatMap OpenAIMessage.links = wireLinks ids (partsOf nodes) := by
  induction nodes generalizing out with
  | nil =>
      obtain rfl := Except.ok.inj h
      rfl
  | cons node nodes ih =>
      rw [openaiMessages] at h
      obtain ⟨message, hmessage, h⟩ := except_bind_eq_ok.mp h
      obtain ⟨rest, hrest, h⟩ := except_bind_eq_ok.mp h
      obtain rfl := Except.ok.inj h
      rw [List.flatMap_cons, openaiMessage_links (hnodes node (by simp)) hmessage,
        ih (fun n hn => hnodes n (by simp [hn])) hrest, partsOf_cons, wireLinks_append]

theorem anthropicBlock_links {ids : List (String × String)} {role : String} {index : Int}
    (p : ModelPart) (blocks : List AnthropicBlock)
    (h : anthropicBlock ids role index p = .ok blocks) :
    blocks.filterMap AnthropicBlock.link? = wireLinks ids [p] := by
  cases p with
  | text t =>
      obtain rfl := Except.ok.inj h
      split <;> rfl
  | image o refs =>
      rw [anthropicBlock] at h
      split at h
      · exact absurd h (by simp)
      · obtain rfl := Except.ok.inj h
        unfold anthropicImage
        split <;> rfl
  | call c =>
      rw [anthropicBlock] at h
      split at h
      · exact absurd h (by simp)
      · obtain ⟨id, hid, h⟩ := except_bind_eq_ok.mp h
        obtain rfl := Except.ok.inj h
        rw [wireId_eq_ok hid]
        rfl
  | result r =>
      obtain ⟨id, hid, h⟩ := except_bind_eq_ok.mp h
      obtain rfl := Except.ok.inj h
      rw [wireId_eq_ok hid]
      rfl

theorem anthropicMessages_links {ids : List (String × String)} {nodes : List MessageNode}
    {system : List String} {out : List (ProviderMessage AnthropicBlock)}
    {q : List String × List (ProviderMessage AnthropicBlock)}
    (h : anthropicMessages P ids system out nodes = .ok q) :
    (q.2.flatMap (·.blocks)).filterMap AnthropicBlock.link? =
      (out.flatMap (·.blocks)).filterMap AnthropicBlock.link? ++
        wireLinks ids (partsOf nodes) := by
  induction nodes generalizing system out with
  | nil =>
      obtain rfl := Except.ok.inj h
      exact (List.append_nil _).symm
  | cons node nodes ih =>
      rw [anthropicMessages] at h
      rw [partsOf_cons, wireLinks_append]
      split at h
      · obtain ⟨texts, htexts, h⟩ := except_bind_eq_ok.mp h
        rw [ih h, systemTexts_links htexts, List.nil_append]
      · dsimp only at h
        split at h
        · exact absurd h (by simp)
        · obtain ⟨blocks, hblocks, h⟩ := except_bind_eq_ok.mp h
          rw [ih h, flatMap_mergeProviderMessage, List.filterMap_append,
            blocksOf_links anthropicBlock_links hblocks, List.append_assoc]

theorem geminiPart_links {ids : List (String × String)} {calls : List ToolCallPart}
    {role : String} {index : Int} (p : ModelPart) (parts : List GeminiPart)
    (h : geminiPart ids calls role index p = .ok parts) :
    parts.filterMap GeminiPart.link? = wireLinks ids [p] := by
  cases p with
  | text t =>
      obtain rfl := Except.ok.inj h
      split <;> rfl
  | image o refs =>
      rw [geminiPart] at h
      split at h
      · exact absurd h (by simp)
      split at h
      · exact absurd h (by simp)
      · obtain rfl := Except.ok.inj h
        rfl
  | call c =>
      rw [geminiPart] at h
      split at h
      · exact absurd h (by simp)
      · obtain ⟨id, hid, h⟩ := except_bind_eq_ok.mp h
        obtain rfl := Except.ok.inj h
        rw [wireId_eq_ok hid]
        rfl
  | result r =>
      rw [geminiPart] at h
      split at h
      · exact absurd h (by simp)
      · obtain ⟨id, hid, h⟩ := except_bind_eq_ok.mp h
        obtain rfl := Except.ok.inj h
        rw [wireId_eq_ok hid]
        rfl

theorem flatMap_mergeGeminiContent (out : List (ProviderMessage GeminiPart)) (role : String)
    (parts : List GeminiPart) :
    (mergeGeminiContent out role parts).flatMap (·.blocks) = out.flatMap (·.blocks) ++ parts := by
  unfold mergeGeminiContent
  split
  · exact flatMap_mergeProviderMessage out role parts
  split
  · rename_i hempty
    rw [List.isEmpty_iff.mp hempty, List.append_nil]
  · simp

theorem geminiContents_links {ids : List (String × String)} {calls : List ToolCallPart}
    {nodes : List MessageNode} {system : List String} {out : List (ProviderMessage GeminiPart)}
    {q : List String × List (ProviderMessage GeminiPart)}
    (h : geminiContents ids calls system out nodes = .ok q) :
    (q.2.flatMap (·.blocks)).filterMap GeminiPart.link? =
      (out.flatMap (·.blocks)).filterMap GeminiPart.link? ++ wireLinks ids (partsOf nodes) := by
  induction nodes generalizing system out with
  | nil =>
      obtain rfl := Except.ok.inj h
      exact (List.append_nil _).symm
  | cons node nodes ih =>
      rw [geminiContents] at h
      rw [partsOf_cons, wireLinks_append]
      split at h
      · obtain ⟨texts, htexts, h⟩ := except_bind_eq_ok.mp h
        rw [ih h, systemTexts_links htexts, List.nil_append]
      · obtain ⟨parts, hparts, h⟩ := except_bind_eq_ok.mp h
        rw [ih h, flatMap_mergeGeminiContent, List.filterMap_append,
          blocksOf_links geminiPart_links hparts, List.append_assoc]

theorem reasoningItems_links (replayed : List String) (raws : List PyValue) :
    (reasoningItems P replayed raws).2.filterMap ResponsesItem.link? = [] := by
  induction raws generalizing replayed with
  | nil => rfl
  | cons raw raws ih =>
      rw [reasoningItems]
      split
      · exact ih replayed
      · rename_i identity item hitem
        have hlink : item.link? = none := by
          unfold reasoningItem at hitem
          split at hitem
          · split at hitem
            · split at hitem
              · exact absurd hitem (by simp)
              dsimp only at hitem
              split at hitem
              · exact absurd hitem (by simp)
              · rw [← (Prod.mk.inj (Option.some.inj hitem)).2]
                rfl
            · exact absurd hitem (by simp)
          · exact absurd hitem (by simp)
        dsimp only
        rw [List.filterMap_cons_none hlink]
        exact ih _

theorem responsesPart_links {ids : List (String × String)} {role : String} {index : Int}
    {replayed : List String} {p : ModelPart} {q : List String × List ResponsesItem}
    (h : responsesPart P ids role index replayed p = .ok q) :
    q.2.filterMap ResponsesItem.link? = wireLinks ids [p] := by
  cases p with
  | text t =>
      obtain rfl := Except.ok.inj h
      dsimp only
      split <;> rfl
  | image o refs =>
      rw [responsesPart] at h
      split at h
      · exact absurd h (by simp)
      · obtain rfl := Except.ok.inj h
        rfl
  | call c =>
      rw [responsesPart] at h
      obtain ⟨id, hid, h⟩ := except_bind_eq_ok.mp h
      obtain ⟨arguments, -, h⟩ := except_bind_eq_ok.mp h
      obtain rfl := Except.ok.inj h
      dsimp only
      rw [List.filterMap_append, reasoningItems_links, wireId_eq_ok hid]
      rfl
  | result r =>
      rw [responsesPart] at h
      obtain ⟨id, hid, h⟩ := except_bind_eq_ok.mp h
      obtain rfl := Except.ok.inj h
      rw [wireId_eq_ok hid]
      rfl

theorem responsesParts_links {ids : List (String × String)} {role : String} {index : Int}
    {replayed : List String} {parts : List ModelPart} {q : List String × List ResponsesItem}
    (h : responsesParts P ids role index replayed parts = .ok q) :
    q.2.filterMap ResponsesItem.link? = wireLinks ids parts := by
  induction parts generalizing replayed q with
  | nil =>
      obtain rfl := Except.ok.inj h
      rfl
  | cons p parts ih =>
      rw [responsesParts] at h
      obtain ⟨first, hfirst, h⟩ := except_bind_eq_ok.mp h
      obtain ⟨rest, hrest, h⟩ := except_bind_eq_ok.mp h
      obtain rfl := Except.ok.inj h
      dsimp only
      rw [List.filterMap_append, responsesPart_links hfirst, ih hrest, ← wireLinks_cons]

theorem responsesItems_links {ids : List (String × String)} {replayed : List String}
    {nodes : List MessageNode} {q : List String × List ResponsesItem}
    (h : responsesItems P ids replayed nodes = .ok q) :
    q.2.filterMap ResponsesItem.link? = wireLinks ids (partsOf nodes) := by
  induction nodes generalizing replayed q with
  | nil =>
      obtain rfl := Except.ok.inj h
      rfl
  | cons node nodes ih =>
      rw [responsesItems] at h
      rw [partsOf_cons, wireLinks_append]
      split at h
      · obtain ⟨texts, htexts, h⟩ := except_bind_eq_ok.mp h
        obtain ⟨rest, hrest, h⟩ := except_bind_eq_ok.mp h
        obtain rfl := Except.ok.inj h
        rw [systemTexts_links htexts, List.nil_append]
        exact @ih replayed rest hrest
      · obtain ⟨first, hfirst, h⟩ := except_bind_eq_ok.mp h
        obtain ⟨rest, hrest, h⟩ := except_bind_eq_ok.mp h
        obtain rfl := Except.ok.inj h
        dsimp only
        rw [List.filterMap_append, responsesParts_links hfirst, ih hrest]

/-- **Every renderer writes the links of the graph**, in order and under the wire
ids of the provider. -/
theorem links_of_render {g : MessageGraph} {out : Rendered} (hg : g.Sound)
    (h : render P g provider = .ok out) :
    ∃ ids, wireCallIds P g provider = .ok ids ∧ out.links = wireLinks ids (partsOf g.messages) := by
  cases provider with
  | openai =>
      obtain ⟨messages, hmessages, h⟩ := except_bind_eq_ok.mp h
      obtain rfl := Except.ok.inj h
      obtain ⟨ids, hids, hmessages⟩ := except_bind_eq_ok.mp hmessages
      exact ⟨ids, hids, openaiMessages_links hg.shaped hmessages⟩
  | anthropic =>
      obtain ⟨q, hq, h⟩ := except_bind_eq_ok.mp h
      obtain rfl := Except.ok.inj h
      obtain ⟨ids, hids, hq⟩ := except_bind_eq_ok.mp hq
      obtain ⟨q', hq', hq⟩ := except_bind_eq_ok.mp hq
      obtain rfl := Except.ok.inj hq
      exact ⟨ids, hids, anthropicMessages_links hq'⟩
  | gemini =>
      obtain ⟨q, hq, h⟩ := except_bind_eq_ok.mp h
      obtain rfl := Except.ok.inj h
      obtain ⟨ids, hids, hq⟩ := except_bind_eq_ok.mp hq
      obtain ⟨q', hq', hq⟩ := except_bind_eq_ok.mp hq
      obtain rfl := Except.ok.inj hq
      exact ⟨ids, hids, geminiContents_links hq'⟩
  | responses =>
      obtain ⟨q, hq, h⟩ := except_bind_eq_ok.mp h
      obtain rfl := Except.ok.inj h
      obtain ⟨ids, hids, hq⟩ := except_bind_eq_ok.mp hq
      obtain ⟨⟨system, items⟩, hq', hq⟩ := except_bind_eq_ok.mp hq
      dsimp only at hq
      split at hq
      · exact absurd hq (by simp [throw, throwThe, MonadExceptOf.throw])
      · obtain rfl := Except.ok.inj hq
        exact ⟨ids, hids, responsesItems_links hq'⟩

/-! ## 3.  What a provider sees -/

theorem getElem?_filterMap_link? {parts : List ModelPart}
    (h : ∀ p ∈ parts, p.isLink = true) (k : Nat) :
    (parts.filterMap ModelPart.link?)[k]? = parts[k]?.bind ModelPart.link? := by
  induction parts generalizing k with
  | nil => rfl
  | cons p parts ih =>
      have htail := ih fun q hq => h q (List.mem_cons_of_mem _ hq)
      obtain ⟨l, hl⟩ : ∃ l, p.link? = some l := by
        have hp := h p List.mem_cons_self
        cases p <;> simp_all [ModelPart.isLink, ModelPart.link?]
      rw [List.filterMap_cons_some hl]
      cases k with
      | zero => simp [hl]
      | succ k => simpa using htail k

/-- The link of a rendered request at the position of a part. -/
theorem getElem?_wireLinks (ids : List (String × String)) (nodes : List MessageNode) (k : Nat) :
    (wireLinks ids (partsOf nodes))[k]? =
      ((linkParts nodes)[k]?.bind ModelPart.link?).map (Link.map (idOf ids)) := by
  rw [wireLinks, ← filterMap_link?_linkParts, List.getElem?_map, getElem?_filterMap_link?]
  intro p hp
  exact (List.mem_filter.mp hp).2

variable (P provider) in
/-- A request body in which the calls of the graph can be told apart and every
result is attached to its own call, which comes first. -/
structure Correlated (g : MessageGraph) (out : Rendered) (ids : List (String × String)) :
    Prop where
  assigned : wireCallIds P g provider = .ok ids
  injective : ∀ c ∈ g.calls, ∀ c' ∈ g.calls,
    Dict.get? ids c.ref = Dict.get? ids c'.ref → c = c'
  rendered : out.links = wireLinks ids (partsOf g.messages)
  attached : ∀ (k : Nat) (r : ToolResultPart), (linkParts g.messages)[k]? = some (.result r) →
    out.links[k]? = some (.result (idOf ids r.callRef)) ∧
      ∃ (j : Nat) (c : ToolCallPart), j < k ∧ (linkParts g.messages)[j]? = some (.call c) ∧
        c.ref = r.callRef ∧ c.sourceId = r.sourceId ∧
        out.links[j]? = some (.call (idOf ids r.callRef))

/-- **Provider call ids.**  For every accepted message list and every rendering that
does not raise, the calls can be told apart and every result is attached to its own
call, exactly when no call that repeats an id is suffixed to an id in use. -/
theorem correlated_iff_clashFree {messages : List PyValue} {images : List ImageInput}
    {g : MessageGraph} {out : Rendered} (hg : buildMessageGraph P messages images = .ok g)
    (hout : render P g provider = .ok out) :
    (∃ ids, Correlated P provider g out ids) ↔
      Fallback.ClashFree (wireNames P provider 0 g.calls) := by
  have hsound := sound_of_buildMessageGraph hg
  obtain ⟨ids, hids, hlinks⟩ := links_of_render hsound hout
  constructor
  · rintro ⟨ids', h⟩
    exact (wireCallIds_injective_iff hsound h.assigned).mp h.injective
  · intro hfree
    refine ⟨ids, hids, (wireCallIds_injective_iff hsound hids).mpr hfree, hlinks, ?_⟩
    intro k r hk
    obtain ⟨j, c, hjk, hj, href, hsource⟩ := hsound.follows k r hk
    refine ⟨?_, j, c, hjk, hj, href, hsource, ?_⟩
    · rw [hlinks, getElem?_wireLinks, hk]
      rfl
    · rw [hlinks, getElem?_wireLinks, hj, ← href]
      rfl

/-! ## 4.  Two requests -/

/-- A host for requests whose values are texts and whose arguments are empty. -/
def emptyArguments : ProjectionHost where
  str _ := ""
  repr s := s
  int _ := none
  lower s := s
  loads _ := some (.dict [])
  dumps _ := .ok "\x7b\x7d"
  detectImageMediaType _ := ""

/-- One call with this id, and its result. -/
def turn (id : String) : List PyValue :=
  [.dict [("role", .str "assistant"), ("content", .none),
      ("tool_calls", .list [.dict [("id", .str id), ("type", .str "function"),
        ("function", .dict [("name", .str "f"), ("arguments", .dict [])])]])],
    .dict [("role", .str "tool"), ("tool_call_id", .str id), ("content", .str "ok")]]

/-- An id that is used again, and an id that looks like its suffixed form. -/
def reusedIds : List PyValue := turn "a" ++ turn "a__2" ++ turn "a"

/-- An id used in two turns is told apart. -/
theorem correlated_iff_clashFree_reused :
    ∃ g out, buildMessageGraph emptyArguments (turn "a" ++ turn "a") [] = .ok g ∧
      render emptyArguments g .openai = .ok out ∧
      out.links = [.call "a", .result "a", .call "a__1", .result "a__1"] ∧
      ((∃ ids, Correlated emptyArguments .openai g out ids) ↔
        Fallback.ClashFree (wireNames emptyArguments .openai 0 g.calls)) := by
  have hlinks : (do
      let g ← buildMessageGraph emptyArguments (turn "a" ++ turn "a") []
      let out ← render emptyArguments g .openai
      return out.links : Except Raised (List (Link String))).toOption =
        some [.call "a", .result "a", .call "a__1", .result "a__1"] := by
    decide +kernel
  obtain ⟨g, hg, h⟩ := except_bind_eq_ok.mp (except_eq_ok_of_toOption hlinks)
  obtain ⟨out, hout, h⟩ := except_bind_eq_ok.mp h
  exact ⟨g, out, hg, hout, Except.ok.inj h, correlated_iff_clashFree hg hout⟩

/-- **Two calls with one id.**  The third call repeats the id of the first one and
is suffixed to the id of the second one. -/
theorem suffixed_id_taken :
    ∃ g out ids, buildMessageGraph emptyArguments reusedIds [] = .ok g ∧
      render emptyArguments g .openai = .ok out ∧
      wireCallIds emptyArguments g .openai = .ok ids ∧
      g.calls.map (·.ref) = ["c0_0", "c2_0", "c4_0"] ∧
      Dict.get? ids "c2_0" = some "a__2" ∧ Dict.get? ids "c4_0" = some "a__2" ∧
      out.links = [.call "a", .result "a", .call "a__2", .result "a__2", .call "a__2",
        .result "a__2"] := by
  have hfacts : (do
      let g ← buildMessageGraph emptyArguments reusedIds []
      let out ← render emptyArguments g .openai
      let ids ← wireCallIds emptyArguments g .openai
      return (g.calls.map (·.ref), Dict.get? ids "c2_0", Dict.get? ids "c4_0", out.links) :
        Except Raised _).toOption =
      some (["c0_0", "c2_0", "c4_0"], some "a__2", some "a__2",
        [.call "a", .result "a", .call "a__2", .result "a__2", .call "a__2",
          .result "a__2"]) := by
    decide +kernel
  obtain ⟨g, hg, h⟩ := except_bind_eq_ok.mp (except_eq_ok_of_toOption hfacts)
  obtain ⟨out, hout, h⟩ := except_bind_eq_ok.mp h
  obtain ⟨ids, hids, h⟩ := except_bind_eq_ok.mp h
  have hvalues := Except.ok.inj h
  simp only [Prod.mk.injEq] at hvalues
  exact ⟨g, out, ids, hg, hout, hids, hvalues⟩

end ModelRuntime
end VariantOne
