import VariantOne.Lib.Turns
import VariantOne.Lib.Txn
import VariantOne.Transcript.Economy

/-!
# Compaction keeps protocol and intent

A transcript is well-formed when every assistant message with calls is followed
at once by the tool messages that answer them.  The boundaries of a compaction
are clean cuts of such a transcript, so what is kept before and after the middle
is well-formed, and between them stand only user messages and the recap.

The result consists of copies.  On the copies the compaction is recorded in the
first receipt there is, under the reserved key of one message (`Annotated`); apart
from this entry the head, the user messages and the tail are what they were, and
the objects of the transcript that was passed in are not touched.

## The argument

1. The loop over the messages moves the two boundaries independently
   (`shiftBounds_eq`), the one up to the end of a turn and the other down to its
   start.  Both are therefore clean cuts (`cleanCut_bounds`): what is before and
   what is after is well-formed by itself.
2. `spliceRecap_spec` says what the copies say, and that they are new objects;
   `addTransformToMessages_eq_ok` that the receipt changes one entry of one copy;
   which messages are kept does not depend on it (`Annotated.kept`).
3. `Declines` lists every reason for which a transcript is left as it is, and
   `compressMessages_cases` that there is no other: a call that returns has either
   met one of them and given the transcript back, or met none and spliced the
   recap in.

`compressMessages_spec` puts these together, and `receipt_annotated` shows that the
message with the receipt is not kept as it is.
-/

namespace VariantOne
namespace Transcript

variable {P : Interpreter}

/-! ## 1.  Well-formed transcripts -/

/-- The ids of the calls of a message. -/
def callIds (message : PyDict) : List (Option PyValue) :=
  match Dict.get? message "tool_calls" with
  | some (.list calls) | some (.tuple calls) =>
      calls.map fun call => (call.dict?).bind fun c => Dict.get? c "id"
  | _ => []

/-- Assistant messages with calls open a turn, tool messages continue it, and they
answer each call once. -/
def toolTurns : TurnShape PyDict where
  opens := isToolTurn
  continues := isTool
  answers message results :=
    (results.map fun r => Dict.get? r "tool_call_id").Perm (callIds message)
  apart := by
    intro message h
    unfold isToolTurn roleIs at h
    unfold isTool roleIs
    rw [Bool.and_eq_true, beq_iff_eq] at h
    rw [h.1]
    rfl

/-! ## 2.  The message without its receipt -/

theorem get?_core {key : String} (hkey : key ≠ reservedMessageKey) (message : PyDict) :
    Dict.get? (core message) key = Dict.get? message key := by
  unfold core
  rw [Dict.get?_restrict, if_pos (by simpa using hkey)]

theorem roleIs_core (message : PyDict) (role : String) :
    roleIs (core message) role = roleIs message role := by
  unfold roleIs
  rw [get?_core (by decide)]

theorem isTool_core (message : PyDict) : isTool (core message) = isTool message :=
  roleIs_core message "tool"

theorem isToolTurn_core (message : PyDict) : isToolTurn (core message) = isToolTurn message := by
  unfold isToolTurn
  rw [roleIs_core, get?_core (by decide)]

theorem isGenuineUserMessage_core (message : PyDict) :
    isGenuineUserMessage P (core message) = isGenuineUserMessage P message := by
  unfold isGenuineUserMessage Interpreter.field
  rw [get?_core (by decide), get?_core (by decide)]

theorem answers_core (message : PyDict) (results : List PyDict) :
    toolTurns.answers (core message) (results.map core) ↔ toolTurns.answers message results := by
  have hids : (results.map core).map (fun r => Dict.get? r "tool_call_id") =
      results.map fun r => Dict.get? r "tool_call_id" := by
    rw [List.map_map]
    exact List.map_congr_left fun r _ => get?_core (by decide) r
  show ((results.map core).map _).Perm (callIds (core message)) ↔ _
  rw [hids, callIds, get?_core (by decide)]
  rfl

/-- Well-formedness does not depend on receipts. -/
theorem wellFormed_of_core {xs ys : List PyDict} (h : xs.map core = ys.map core)
    (hxs : toolTurns.WellFormed xs) : toolTurns.WellFormed ys := by
  have hmap : ∀ zs : List PyDict, toolTurns.WellFormed (zs.map core) ↔ toolTurns.WellFormed zs :=
    fun zs => TurnShape.wellFormed_map_iff isToolTurn_core isTool_core answers_core
  rw [← hmap, ← h, hmap]
  exact hxs

/-! ## 3.  The boundaries are clean cuts -/

/-- The loop moves the two boundaries independently. -/
theorem shiftBounds_eq (i headEnd tailStart : Nat) (messages : List PyDict) :
    shiftBounds i headEnd tailStart messages =
      (toolTurns.raise i headEnd messages, toolTurns.lower i tailStart messages) := by
  induction messages generalizing i headEnd tailStart with
  | nil => rfl
  | cons message messages ih =>
      rw [shiftBounds, TurnShape.raise, TurnShape.lower]
      have hopens : toolTurns.opens message = isToolTurn message := rfl
      have hcont : toolTurns.continues = isTool := rfl
      rw [hopens, hcont]
      by_cases hturn : isToolTurn message
      · rw [if_pos hturn]
        dsimp only
        rw [ih]
        simp only [hturn, true_and]
        congr 1
        · split <;> rfl
        · split <;> rfl
      · rw [if_neg hturn, if_neg (fun h => hturn h.1), if_neg (fun h => hturn h.1), ih]

/-- **Both boundaries are clean cuts.** -/
theorem cleanCut_bounds {messages : List PyDict} (h : toolTurns.WellFormed messages)
    (protectFirst protectLast : Int) :
    toolTurns.CleanCut messages (bounds messages protectFirst protectLast).1 ∧
      toolTurns.CleanCut messages (bounds messages protectFirst protectLast).2 := by
  unfold bounds
  rw [shiftBounds_eq]
  have hhead : (initialBounds messages.length protectFirst protectLast).1 ≤ messages.length :=
    min_le_right _ _
  constructor
  · obtain ⟨d, hd, -, -, hcut⟩ := h.cleanCut_raise (Nat.zero_le _) (by simpa using hhead)
    rw [Nat.zero_add] at hd
    exact hd ▸ hcut
  · rcases le_or_gt (initialBounds messages.length protectFirst protectLast).2 messages.length
      with hle | hgt
    · obtain ⟨d, hd, -, hcut⟩ := h.cleanCut_lower (Nat.zero_le _) (by simpa using hle)
      rw [Nat.zero_add] at hd
      exact hd ▸ hcut
    · rw [TurnShape.lower_of_length_le (by omega)]
      exact h.cleanCut_length hgt.le

/-- Without a protected end the middle reaches to the last message. -/
theorem bounds_protectLast_zero (messages : List PyDict) (protectFirst : Int) :
    (bounds messages protectFirst 0).2 = messages.length := by
  have htail : (initialBounds messages.length protectFirst 0).2 = messages.length := by
    simp [initialBounds]
  unfold bounds
  rw [shiftBounds_eq]
  dsimp only
  rw [TurnShape.lower_of_length_le (by omega), htail]

/-! ## 4.  Copies -/

theorem load_append (store : Store) (xs ys : List Nat) :
    load store (xs ++ ys) = load store xs ++ load store ys := by
  simp [load]

/-- What a valid transcript says does not change when objects are added. -/
theorem load_grow {store : Store} {transcript : List Nat} (more : Store)
    (h : ∀ a ∈ transcript, a < store.length) :
    load (store ++ more) transcript = load store transcript := by
  refine List.map_congr_left fun a ha => ?_
  unfold cell
  rw [List.getElem?_append_left (h a ha)]

theorem load_deepcopy (store : Store) (transcript : List Nat) :
    load (deepcopy store transcript).1 (deepcopy store transcript).2 = load store transcript := by
  unfold deepcopy load
  rw [List.map_map]
  refine List.map_congr_left fun a _ => ?_
  unfold Function.comp cell
  rw [List.getElem?_append_right (Nat.le_add_right _ _), Nat.add_sub_cancel_left]

theorem mem_deepcopy {store : Store} {transcript : List Nat} {a : Nat}
    (h : a ∈ (deepcopy store transcript).2) (hvalid : ∀ b ∈ transcript, b < store.length) :
    store.length ≤ a ∧ a < (deepcopy store transcript).1.length := by
  obtain ⟨b, hb, rfl⟩ := List.mem_map.mp h
  have := hvalid b hb
  simp only [deepcopy, List.length_append]
  omega

/-- What some messages say once a transform is recorded on them: it is added to the receipt of the first
message that has one, and every other message is as it was. -/
inductive Annotated (P : Interpreter) (kind reason : String) (before after : List PyDict) : Prop
  | unmarked (hnone : ∀ m ∈ before, receipt? m = none) (h : after = before)
  | marked {m receipt receipt' metrics : PyDict}
      (hfirst : before.find? (fun m => (receipt? m).isSome) = some m)
      (hreceipt : receipt? m = some receipt)
      (hadd : addTransform P receipt kind reason metrics = .ok receipt')
      (htold : after.find? (fun m => (receipt? m).isSome) =
        some (Dict.set m reservedMessageKey (.dict receipt')))
      (hothers : List.Forall₂ (fun x y =>
        y = x ∨ x = m ∧ y = Dict.set m reservedMessageKey (.dict receipt')) before after)

/-- A message that is kept: all of it but a receipt. -/
def Kept (x y : PyDict) : Prop := core y = core x ∧ (receipt? x = none → y = x)

theorem Annotated.kept {kind reason : String} {before after : List PyDict}
    (h : Annotated P kind reason before after) : List.Forall₂ Kept before after := by
  cases h with
  | unmarked hnone h =>
      rw [h]
      exact List.forall₂_same.mpr fun x _ => ⟨rfl, fun _ => rfl⟩
  | marked hfirst hreceipt hadd htold hothers =>
      refine hothers.imp fun x y hxy => ?_
      rcases hxy with rfl | ⟨rfl, rfl⟩
      · exact ⟨rfl, fun _ => rfl⟩
      · exact ⟨Dict.restrict_set (by simp) _ _, fun hnone => absurd (hreceipt.symm.trans hnone) (by simp)⟩

/-- The receipts aside, the messages say the same. -/
theorem core_of_kept {xs ys : List PyDict} (h : List.Forall₂ Kept xs ys) : ys.map core = xs.map core := by
  induction h with
  | nil => rfl
  | cons hxy _ ih => rw [List.map_cons, List.map_cons, ih, hxy.1]

/-- Which messages are genuine user messages does not depend on receipts. -/
theorem filter_genuine_of_kept {xs ys : List PyDict} (h : List.Forall₂ Kept xs ys) :
    List.Forall₂ Kept (xs.filter (isGenuineUserMessage P)) (ys.filter (isGenuineUserMessage P)) := by
  refine List.rel_filter (fun x y hxy => ?_) h
  show isGenuineUserMessage P x = true ↔ isGenuineUserMessage P y = true
  rw [← isGenuineUserMessage_core x, ← hxy.1, isGenuineUserMessage_core]

/-- A transform is recorded on one object of the transcript and changes nothing but
its receipt. -/
theorem addTransformToMessages_eq_ok {store store' : Store} {transcript : List Nat}
    {kind reason : String} {metrics : PyDict}
    (h : addTransformToMessages P store transcript kind reason metrics = .ok store') :
    (∀ a, a ∉ transcript → store'[a]? = store[a]?) ∧
      Annotated P kind reason (load store transcript) (load store' transcript) := by
  unfold addTransformToMessages at h
  split at h
  · rename_i hnone
    obtain rfl := Except.ok.inj h
    refine ⟨fun _ _ => rfl, .unmarked (fun m hm => ?_) rfl⟩
    obtain ⟨a, ha, rfl⟩ := List.mem_map.mp hm
    simpa using List.find?_eq_none.mp hnone a ha
  · rename_i b hb
    obtain ⟨receipt, hreceipt⟩ := Option.isSome_iff_exists.mp (by simpa using List.find?_some hb)
    rw [hreceipt] at h
    split at h
    · exact absurd h (by simp)
    · rename_i receipt' hadd
      obtain rfl := Except.ok.inj h
      have hcell : ∀ a, cell (store.modify b fun m => Dict.set m reservedMessageKey (.dict receipt')) a =
          if a = b then Dict.set (cell store b) reservedMessageKey (.dict receipt') else cell store a := by
        intro a
        unfold cell
        rw [List.getElem?_modify]
        by_cases hab : a = b
        · rw [if_pos hab, hab]
          cases hm : store[b]? with
          | none =>
              rw [cell, hm] at hreceipt
              exact absurd hreceipt (by simp [receipt?, Dict.get?_nil])
          | some m => simp
        · rw [if_neg hab]
          cases store[a]? with
          | none => rfl
          | some m => simp [Ne.symm hab]
      refine ⟨fun a ha => ?_, .marked (m := cell store b) ?_ hreceipt hadd ?_ ?_⟩
      · have hne : b ≠ a := by
          rintro rfl
          exact ha (List.mem_of_find?_eq_some hb)
        rw [List.getElem?_modify]
        cases store[a]? with
        | none => rfl
        | some m => simp [hne]
      · rw [load, List.find?_map]
        exact congrArg (Option.map (cell store)) hb
      · have hsame : (fun m => (receipt? m).isSome) ∘
            cell (store.modify b fun m => Dict.set m reservedMessageKey (.dict receipt')) =
              fun a => (receipt? (cell store a)).isSome := by
          funext a
          rw [Function.comp, hcell]
          split
          · rename_i hab
            rw [hab, hreceipt, receipt?, Dict.get?_set_self]
            rfl
          · rfl
        rw [load, List.find?_map, hsame, hb, Option.map_some, hcell, if_pos rfl]
      · rw [load, load, List.forall₂_map_left_iff, List.forall₂_map_right_iff, List.forall₂_same]
        intro a _
        rw [hcell]
        split
        · rename_i hab
          exact .inr ⟨congrArg (cell store) hab, rfl⟩
        · exact .inl rfl

theorem cell_length (store more : Store) (note : PyDict) :
    cell (store ++ [note] ++ more) store.length = note := by
  unfold cell
  simp

/-- **What takes the place of the middle**: copies, which say what their sources say. -/
theorem spliceRecap_spec {store s₃ : Store} {head users tail out : List Nat} {note : PyDict}
    (hhead : ∀ a ∈ head, a < store.length) (husers : ∀ a ∈ users, a < store.length)
    (htail : ∀ a ∈ tail, a < store.length)
    (h : spliceRecap store head users tail note = (s₃, out)) :
    load s₃ out = load store head ++ load store users ++ [note] ++ load store tail ∧
      ∀ a, a < store.length → s₃[a]? = store[a]? ∧ a ∉ out := by
  -- the stores after the copies of the head and of the users
  obtain ⟨s₁, h₁, hs₁⟩ : ∃ s₁ h₁, deepcopy store head = (s₁, h₁) := ⟨_, _, rfl⟩
  obtain ⟨s₂, h₂, hs₂⟩ : ∃ s₂ h₂, deepcopy s₁ users = (s₂, h₂) := ⟨_, _, rfl⟩
  obtain ⟨s₃', h₃, hs₃⟩ : ∃ s₃ h₃, deepcopy (s₂ ++ [note]) tail = (s₃, h₃) := ⟨_, _, rfl⟩
  unfold spliceRecap at h
  rw [hs₁] at h
  dsimp only at h
  rw [hs₂] at h
  dsimp only at h
  rw [hs₃] at h
  obtain ⟨rfl, rfl⟩ := Prod.mk.inj h
  have e₁ : s₁ = store ++ store := congrArg Prod.fst hs₁.symm
  have e₂ : s₂ = s₁ ++ s₁ := congrArg Prod.fst hs₂.symm
  have e₃ : s₃' = s₂ ++ [note] ++ (s₂ ++ [note]) := congrArg Prod.fst hs₃.symm
  -- each copy says what its source says, and consists of new objects
  have copied : ∀ {s s' : Store} {xs ys : List Nat}, deepcopy s xs = (s', ys) →
      (∀ a ∈ xs, a < s.length) →
      load s' ys = load s xs ∧ ∀ a ∈ ys, s.length ≤ a ∧ a < s'.length := by
    intro s s' xs ys hc hvalid
    have hload := load_deepcopy s xs
    have hmem := fun a (ha : a ∈ (deepcopy s xs).2) => mem_deepcopy ha hvalid
    rw [hc] at hload hmem
    exact ⟨hload, hmem⟩
  have grow₁ : store.length ≤ s₁.length := by simp [e₁]
  have grow₂ : s₁.length ≤ s₂.length := by simp [e₂]
  obtain ⟨hload₁, hmem₁⟩ := copied hs₁ hhead
  obtain ⟨hload₂, hmem₂⟩ := copied hs₂ fun a ha => lt_of_lt_of_le (husers a ha) grow₁
  obtain ⟨hload₃, hmem₃⟩ := copied hs₃ fun a ha => by
    have := htail a ha
    rw [List.length_append]
    omega
  constructor
  · have said₁ : load s₃' h₁ = load store head := by
      rw [e₃, e₂, List.append_assoc, List.append_assoc, load_grow _ fun a ha => (hmem₁ a ha).2]
      exact hload₁
    have said₂ : load s₃' h₂ = load store users := by
      rw [e₃, List.append_assoc, load_grow _ fun a ha => (hmem₂ a ha).2, hload₂, e₁]
      exact load_grow _ husers
    have said₃ : load s₃' h₃ = load store tail := by
      rw [hload₃, e₂, e₁, List.append_assoc, List.append_assoc]
      exact load_grow _ htail
    have saidNote : load s₃' [s₂.length] = [note] := by
      unfold load
      rw [List.map_singleton, e₃, cell_length]
    rw [load_append, load_append, load_append, said₁, said₂, said₃, saidNote]
  · intro a ha
    constructor
    · rw [e₃, e₂, e₁]
      simp only [List.append_assoc]
      rw [List.getElem?_append_left ha]
    · intro hmem
      simp only [List.mem_append, List.mem_singleton] at hmem
      rcases hmem with ((hm | hm) | hm) | hm
      · have := (hmem₁ a hm).1
        omega
      · have := (hmem₂ a hm).1
        omega
      · omega
      · have := (hmem₃ a hm).1
        rw [List.length_append] at this
        omega

theorem installRecap_eq_ok {store store' : Store} {head users tail out : List Nat} {note : PyDict}
    {before : Metrics} {affected : Nat} (hhead : ∀ a ∈ head, a < store.length)
    (husers : ∀ a ∈ users, a < store.length) (htail : ∀ a ∈ tail, a < store.length)
    (h : installRecap P store head users tail note before affected = .ok (store', out)) :
    (∀ a, a < store.length → store'[a]? = store[a]?) ∧ (∀ a ∈ out, store.length ≤ a) ∧
      Annotated P "context_compression" "token_threshold"
        (load store head ++ load store users ++ [note] ++ load store tail) (load store' out) := by
  obtain ⟨s, compacted, hs⟩ : ∃ s compacted, spliceRecap store head users tail note =
      (s, compacted) := ⟨_, _, rfl⟩
  obtain ⟨hload, hold⟩ := spliceRecap_spec hhead husers htail hs
  unfold installRecap at h
  rw [hs] at h
  dsimp only at h
  split at h
  · exact absurd h (by simp)
  · split at h
    · exact absurd h (by simp)
    · rename_i s' hadd
      obtain ⟨rfl, rfl⟩ := Prod.mk.inj (Except.ok.inj h)
      obtain ⟨hkeep, hannotated⟩ := addTransformToMessages_eq_ok hadd
      refine ⟨fun a ha => ?_, fun a ha => ?_, ?_⟩
      · rw [hkeep a (hold a ha).2]
        exact (hold a ha).1
      · by_contra hlt
        exact (hold a (Nat.not_le.mp hlt)).2 ha
      · rwa [hload] at hannotated

/-! ## 5.  What can raise -/

/-- What can raise in a message: its calls are no collection, or its receipt is
malformed. -/
def Raises (P : Interpreter) (message : PyDict) : Prop :=
  (∃ e, toolCalls message = .error e) ∨
    ∃ receipt metrics e, receipt? message = some receipt ∧
      addTransform P receipt "context_compression" "token_threshold" metrics = .error e

theorem messageMetrics_eq_error {m : Metrics} {messages : List PyDict} {e : Raised}
    (h : messageMetrics m messages = .error e) :
    ∃ message ∈ messages, ∃ e, toolCalls message = .error e := by
  induction messages generalizing m with
  | nil => exact absurd h (by simp [messageMetrics])
  | cons message messages ih =>
      rw [messageMetrics] at h
      split at h
      · rename_i e' he'
        exact ⟨message, List.mem_cons_self, e', he'⟩
      · obtain ⟨message', hmem, herr⟩ := ih h
        exact ⟨message', List.mem_cons_of_mem _ hmem, herr⟩

theorem not_raises_recapNote (summary : String) : ¬ Raises P (recapNote summary) := by
  rintro (⟨e, he⟩ | ⟨receipt, metrics, e, hreceipt, -⟩)
  · exact absurd he (by simp [toolCalls, recapNote, Dict.get?, orElse, PyValue.iter])
  · exact absurd hreceipt (by simp [receipt?, recapNote, Dict.get?, reservedMessageKey])

theorem installRecap_eq_error {store : Store} {head users tail : List Nat} {summary : String}
    {before : Metrics} {affected : Nat} {e : Raised} (hhead : ∀ a ∈ head, a < store.length)
    (husers : ∀ a ∈ users, a < store.length) (htail : ∀ a ∈ tail, a < store.length)
    (h : installRecap P store head users tail (recapNote summary) before affected = .error e) :
    ∃ a ∈ head ++ users ++ tail, Raises P (cell store a) := by
  obtain ⟨s, compacted, hs⟩ : ∃ s compacted, spliceRecap store head users tail
      (recapNote summary) = (s, compacted) := ⟨_, _, rfl⟩
  obtain ⟨hload, -⟩ := spliceRecap_spec hhead husers htail hs
  -- a message that raises is no recap, so it was copied
  have hcopied : ∀ message ∈ load s compacted, Raises P message →
      ∃ a ∈ head ++ users ++ tail, Raises P (cell store a) := by
    intro message hmem hraises
    rw [hload] at hmem
    have hmem' : message ∈ load store (head ++ users ++ tail) := by
      rw [load_append, load_append]
      simp only [List.mem_append, List.mem_singleton] at hmem ⊢
      rcases hmem with ((hm | hm) | rfl) | hm
      · exact .inl (.inl hm)
      · exact .inl (.inr hm)
      · exact absurd hraises (not_raises_recapNote summary)
      · exact .inr hm
    obtain ⟨a, ha, rfl⟩ := List.mem_map.mp hmem'
    exact ⟨a, ha, hraises⟩
  unfold installRecap at h
  rw [hs] at h
  dsimp only at h
  split at h
  · rename_i e' he'
    obtain ⟨message, hmem, herr⟩ := messageMetrics_eq_error he'
    exact hcopied message hmem (.inl herr)
  · split at h
    · rename_i e' he'
      unfold addTransformToMessages at he'
      split at he'
      · exact absurd he' (by simp)
      · rename_i b hb
        split at he'
        · rename_i e'' hadd
          have hsome : (receipt? (cell s b)).isSome = true := by
            simpa using List.find?_some hb
          obtain ⟨receipt, hreceipt⟩ := Option.isSome_iff_exists.mp hsome
          rw [hreceipt] at hadd
          exact hcopied (cell s b) (List.mem_map_of_mem (List.mem_of_find?_eq_some hb))
            (.inr ⟨receipt, _, e'', hreceipt, hadd⟩)
        · exact absurd he' (by simp)
    · exact absurd h (by simp)

/-! ## 6.  The call -/

theorem filter_load (store : Store) (xs : List Nat) (p : PyDict → Bool) :
    load store (xs.filter fun a => p (cell store a)) = (load store xs).filter p := by
  unfold load
  rw [List.filter_map]
  rfl

/-- What stands between the boundaries. -/
def between (b : Nat × Nat) (messages : List PyDict) : List PyDict := (messages.take b.2).drop b.1

theorem load_between (store : Store) (messages : List Nat) (b : Nat × Nat) :
    load store ((messages.take b.2).drop b.1) = between b (load store messages) := by
  unfold load between
  rw [List.map_drop, List.map_take]

/-- **Why a transcript is left as it is.** -/
inductive Declines (H : CompactionHost) (c : Circumstances) (protectFirst protectLast : Int)
    (messages : List PyDict) : Prop
  | notReady (h : c.ready = false)
  | short (h : (messages.length : Int) ≤ protectFirst + protectLast + 2)
  | crossed (h : (bounds messages protectFirst protectLast).2 ≤ (bounds messages protectFirst protectLast).1)
  | little (h : (between (bounds messages protectFirst protectLast) messages).length < 3)
  /-- No message between the boundaries leaves an entry for the summary prompt. -/
  | silent (h : H.entries messages ((between (bounds messages protectFirst protectLast) messages).filter
      fun m => !isGenuineUserMessage H.toInterpreter m) = .ok [])
  | notReadyAgain (h : c.readyFingerprint = false)
  | failed (h : c.summary = none)
  | rejected {summary : PyValue} {reason : String} (hsummary : c.summary = some summary)
      (h : H.validatedSummary summary = .error reason)
  | stopped (h : c.shouldStop = true)

/-- What one call does. -/
theorem compressMessages_cases (H : CompactionHost) (c : Circumstances)
    (protectFirst protectLast : Int) (store : Store) (messages : List Nat) :
    let b := bounds (load store messages) protectFirst protectLast
    let middle := (messages.take b.2).drop b.1
    let genuine a := isGenuineUserMessage H.toInterpreter (cell store a)
    let r := compressMessages H c protectFirst protectLast store messages
    (r = .ok (store, messages) ∧ Declines H c protectFirst protectLast (load store messages)) ∨
      (∃ e, r = .error e ∧ ((∃ a ∈ messages, ∃ e, toolCalls (cell store a) = .error e) ∨
        (∃ evidence, H.entries (load store messages) evidence = .error e) ∨
        H.fileState (load store messages) = .error e)) ∨
      ∃ body fileState before, ¬ Declines H c protectFirst protectLast (load store messages) ∧
        b.1 < b.2 ∧ H.fileState (load store messages) = .ok fileState ∧
        r = installRecap H.toInterpreter store (messages.take b.1) (middle.filter genuine)
          (messages.drop b.2)
          (recapNote (if fileState ≠ "" then body ++ "\n\n" ++ fileState else body)) before
          middle.length := by
  intro b middle genuine r
  have hr : r = compressMessages H c protectFirst protectLast store messages := rfl
  have hlength : (load store messages).length = messages.length := List.length_map _
  have hzero : protectLast = 0 → b.2 = messages.length := by
    intro hlast
    show (bounds (load store messages) protectFirst protectLast).2 = _
    rw [hlast, bounds_protectLast_zero, hlength]
  have hwindow : messages.take (if protectLast ≠ 0 then b.2 else messages.length) =
      messages.take b.2 := by
    split
    · rfl
    · rename_i hlast
      rw [hzero (not_not.mp hlast)]
  have htail : (if protectLast ≠ 0 then messages.drop b.2 else []) = messages.drop b.2 := by
    split
    · rfl
    · rename_i hlast
      rw [hzero (not_not.mp hlast), List.drop_length]
  have hmiddle : load store middle = between b (load store messages) := load_between store messages b
  have hevidence : load store (middle.filter fun a => !genuine a) =
      (between b (load store messages)).filter fun m => !isGenuineUserMessage H.toInterpreter m := by
    rw [← hmiddle]
    exact filter_load store middle fun m => !isGenuineUserMessage H.toInterpreter m
  have hcount : middle.length = (between b (load store messages)).length := by
    rw [← hmiddle]
    exact (List.length_map _).symm
  rw [compressMessages] at hr
  dsimp only at hr
  rw [hwindow, htail] at hr
  split at hr
  · rename_i hready
    exact .inl ⟨hr, .notReady (by simpa using hready)⟩
  rename_i hready
  split at hr
  · rename_i hshort
    exact .inl ⟨hr, .short (by rwa [hlength])⟩
  rename_i hshort
  split at hr
  · rename_i hcrossed
    exact .inl ⟨hr, .crossed hcrossed⟩
  rename_i hlt
  split at hr
  · rename_i hlittle
    exact .inl ⟨hr, .little (hcount ▸ hlittle)⟩
  rename_i hlittle
  split at hr
  · rename_i e he
    obtain ⟨message, hmem, herr⟩ := messageMetrics_eq_error he
    obtain ⟨a, ha, rfl⟩ := List.mem_map.mp hmem
    exact .inr (.inl ⟨e, hr, .inl ⟨a, ha, herr⟩⟩)
  rename_i before hbefore
  split at hr
  · rename_i e he
    exact .inr (.inl ⟨e, hr, .inr (.inl ⟨_, he⟩)⟩)
  · rename_i hsilent
    exact .inl ⟨hr, .silent (hevidence ▸ hsilent)⟩
  rename_i hentries
  split at hr
  · rename_i e he
    exact .inr (.inl ⟨e, hr, .inr (.inr he)⟩)
  rename_i fileState hfile
  split at hr
  · rename_i hfingerprint
    exact .inl ⟨hr, .notReadyAgain (by simpa using hfingerprint)⟩
  rename_i hfingerprint
  split at hr
  · rename_i hfailed
    exact .inl ⟨hr, .failed (Option.map_eq_none_iff.mp hfailed)⟩
  · rename_i hrejected
    obtain ⟨summary, hsummary, hreason⟩ := Option.map_eq_some_iff.mp hrejected
    exact .inl ⟨hr, .rejected hsummary hreason⟩
  rename_i body hbody
  obtain ⟨summary, hsummary, hvalid⟩ := Option.map_eq_some_iff.mp hbody
  split at hr
  · rename_i hstop
    exact .inl ⟨hr, .stopped hstop⟩
  rename_i hstop
  refine .inr (.inr ⟨body, fileState, before, fun hdeclines => ?_, Nat.not_le.mp hlt, hfile, hr⟩)
  -- Each reason is the branch that was not taken.
  cases hdeclines with
  | notReady h => exact hready (by simp [h])
  | short h => exact hshort (by rwa [hlength] at h)
  | crossed h => exact hlt h
  | little h => exact hlittle (hcount ▸ h)
  | silent h =>
      rw [← hevidence] at h
      exact absurd (hentries.symm.trans h) (by simp)
  | notReadyAgain h => exact hfingerprint (by simp [h])
  | failed h => exact absurd (hsummary.symm.trans h) (by simp)
  | rejected hsummary' h =>
      obtain rfl := Option.some.inj (hsummary.symm.trans hsummary')
      exact absurd (hvalid.symm.trans h) (by simp)
  | stopped h => exact hstop h

variable (P) in
/-- What an accepted compaction makes of a transcript with these boundaries. -/
structure Compacted (b : Nat × Nat) (original result : List PyDict) : Prop where
  /-- The head and the tail are kept, and the user messages between them; one recap is new.  The first
  receipt is told of the compaction, and nothing else is changed. -/
  spliced : ∃ summary, Annotated P "context_compression" "token_threshold" (original.take b.1 ++
    (between b original).filter (isGenuineUserMessage P) ++ [recapNote summary] ++
      original.drop b.2) result
  /-- Every user message, once and in order. -/
  users : List.Forall₂ Kept (original.filter (isGenuineUserMessage P))
    (result.filter (isGenuineUserMessage P))
  /-- No result without its call, and no call without its results. -/
  protocol : toolTurns.WellFormed result

theorem not_genuine_recapNote (summary : String) :
    isGenuineUserMessage P (recapNote summary) = false := by
  have hrole : P.field (recapNote summary) "role" = "assistant" := rfl
  unfold isGenuineUserMessage
  rw [hrole]
  rfl

/-- A user message belongs to no turn. -/
theorem plain_of_genuine {message : PyDict} (h : isGenuineUserMessage P message = true) :
    isToolTurn message = false ∧ isTool message = false := by
  unfold isGenuineUserMessage at h
  have hrole : P.field message "role" = "user" := by
    rw [Bool.and_eq_true, beq_iff_eq] at h
    exact h.1
  have hne : ∀ role, role ≠ "user" → role ≠ "" → roleIs message role = false := by
    intro role huser hempty
    unfold roleIs
    rw [beq_eq_false_iff_ne]
    intro hsome
    obtain ⟨v, hv, hstr⟩ := Option.bind_eq_some_iff.mp hsome
    obtain rfl : v = .str role := by
      cases v <;> simp_all [PyValue.str?]
    have : P.field message "role" = role := by
      simp [Interpreter.field, hv, orElse, PyValue.truthy, hempty, Interpreter.text]
    exact huser (this ▸ hrole)
  constructor
  · unfold isToolTurn
    rw [hne "assistant" (by decide) (by decide), Bool.false_and]
  · exact hne "tool" (by decide) (by decide)

theorem wellFormed_recapNote (summary : String) : toolTurns.WellFormed [recapNote summary] :=
  .plain rfl rfl .nil

/-- The boundaries cut a transcript in three. -/
theorem take_between_drop {b : Nat × Nat} (hlt : b.1 < b.2) (messages : List PyDict) :
    messages.take b.1 ++ between b messages ++ messages.drop b.2 = messages := by
  have htake : messages.take b.1 = (messages.take b.2).take b.1 := by
    rw [List.take_take, min_eq_left hlt.le]
  rw [htake, between, List.take_append_drop, List.take_append_drop]

/-- Clean cuts leave well-formed parts, and the user messages between them are kept. -/
theorem Compacted.of_cuts {b : Nat × Nat} {original result : List PyDict} {summary : String}
    (hlt : b.1 < b.2) (hhead : toolTurns.WellFormed (original.take b.1))
    (htail : toolTurns.WellFormed (original.drop b.2))
    (hresult : Annotated P "context_compression" "token_threshold" (original.take b.1 ++
      (between b original).filter (isGenuineUserMessage P) ++ [recapNote summary] ++
        original.drop b.2) result) : Compacted P b original result := by
  have hfilter : (original.take b.1 ++ (between b original).filter (isGenuineUserMessage P) ++
      [recapNote summary] ++ original.drop b.2).filter (isGenuineUserMessage P) =
        original.filter (isGenuineUserMessage P) := by
    conv_rhs => rw [← take_between_drop hlt original]
    simp only [List.filter_append, List.filter_filter, Bool.and_self]
    rw [List.filter_singleton, not_genuine_recapNote]
    simp
  refine ⟨⟨summary, hresult⟩, ?_, ?_⟩
  · rw [← hfilter]
    exact filter_genuine_of_kept hresult.kept
  · have husers : toolTurns.WellFormed ((between b original).filter (isGenuineUserMessage P)) :=
      TurnShape.wellFormed_of_plain fun m hm => plain_of_genuine (List.mem_filter.mp hm).2
    exact wellFormed_of_core (core_of_kept hresult.kept).symm
      (((hhead.append husers).append (wellFormed_recapNote summary)).append htail)

/-- **Compaction.**  A call that returns leaves every object as it was.  It returns the transcript it was
given exactly when something speaks against a recap, and otherwise a compacted transcript of new objects.
It raises only where a message, the summary prompt or the file state raises. -/
theorem compressMessages_spec (H : CompactionHost) (c : Circumstances)
    (protectFirst protectLast : Int) (store : Store) (messages : List Nat)
    (hvalid : ∀ a ∈ messages, a < store.length)
    (hturns : toolTurns.WellFormed (load store messages)) :
    (∀ store' out,
      compressMessages H c protectFirst protectLast store messages = .ok (store', out) →
        (∀ a, a < store.length → store'[a]? = store[a]?) ∧
          ((Declines H c protectFirst protectLast (load store messages) ∧
              out = messages ∧ store' = store) ∨
            (¬ Declines H c protectFirst protectLast (load store messages) ∧
              (∀ a ∈ out, store.length ≤ a) ∧
              Compacted H.toInterpreter (bounds (load store messages) protectFirst protectLast)
                (load store messages) (load store' out)))) ∧
      ∀ e, compressMessages H c protectFirst protectLast store messages = .error e →
        (∃ a ∈ messages, Raises H.toInterpreter (cell store a)) ∨
          (∃ evidence, H.entries (load store messages) evidence = .error e) ∨
            H.fileState (load store messages) = .error e := by
  have hcases := compressMessages_cases H c protectFirst protectLast store messages
  obtain ⟨hcutHead, hcutTail⟩ := cleanCut_bounds hturns protectFirst protectLast
  generalize bounds (load store messages) protectFirst protectLast = b at *
  dsimp only at hcases
  have hhead : ∀ a ∈ messages.take b.1, a < store.length :=
    fun a ha => hvalid a (List.mem_of_mem_take ha)
  have hmiddle : ∀ a ∈ (messages.take b.2).drop b.1, a < store.length :=
    fun a ha => hvalid a (List.mem_of_mem_take (List.mem_of_mem_drop ha))
  have htail : ∀ a ∈ messages.drop b.2, a < store.length :=
    fun a ha => hvalid a (List.mem_of_mem_drop ha)
  constructor
  · intro store' out hok
    rcases hcases with ⟨h, hdeclines⟩ | ⟨e, h, -⟩ | ⟨body, fileState, before, haccepts, hlt, -, h⟩
    · obtain ⟨rfl, rfl⟩ := Prod.mk.inj (Except.ok.inj (hok.symm.trans h))
      exact ⟨fun _ _ => rfl, .inl ⟨hdeclines, rfl, rfl⟩⟩
    · exact absurd (hok.symm.trans h) (by simp)
    · obtain ⟨hkeep, hnew, hannotated⟩ := installRecap_eq_ok hhead
        (fun a ha => hmiddle a (List.mem_of_mem_filter ha)) htail (h.symm.trans hok)
      refine ⟨hkeep, .inr ⟨haccepts, hnew, ?_⟩⟩
      rw [filter_load, load_between] at hannotated
      have hloadHead : load store (messages.take b.1) = (load store messages).take b.1 := List.map_take
      have hloadTail : load store (messages.drop b.2) = (load store messages).drop b.2 := List.map_drop
      rw [hloadHead, hloadTail] at hannotated
      exact Compacted.of_cuts hlt hcutHead.1 hcutTail.2 hannotated
  · intro e herr
    rcases hcases with ⟨h, -⟩ | ⟨e', h, hwhy⟩ | ⟨body, fileState, before, -, hlt, -, h⟩
    · exact absurd (herr.symm.trans h) (by simp)
    · obtain rfl := Except.error.inj (herr.symm.trans h)
      rcases hwhy with ⟨a, ha, hcalls⟩ | hentries | hfile
      · exact .inl ⟨a, ha, .inl hcalls⟩
      · exact .inr (.inl hentries)
      · exact .inr (.inr hfile)
    · obtain ⟨a, ha, hraises⟩ := installRecap_eq_error hhead
        (fun a ha => hmiddle a (List.mem_of_mem_filter ha)) htail (h.symm.trans herr)
      refine .inl ⟨a, ?_, hraises⟩
      simp only [List.mem_append] at ha
      rcases ha with (ha | ha) | ha
      · exact List.mem_of_mem_take ha
      · exact List.mem_of_mem_take (List.mem_of_mem_drop (List.mem_of_mem_filter ha))
      · exact List.mem_of_mem_drop ha

/-! ## 7.  Two calls -/

/-- A recap with every section. -/
def emptyRecap : String :=
  "## Goal\nNone observed.\n## Confirmed Results\nNone observed.\n" ++
  "## Pending Work\nNone observed.\n## Failed Attempts (not blockers)\nNone observed.\n" ++
  "## Exact Context\nNone observed."

/-- A host for messages with plain texts. -/
def plainTexts : CompactionHost where
  str _ := ""
  repr s := s
  int _ := none
  lower s := s
  loads _ := none
  dumps _ := .ok ""
  entries _ evidence := .ok (evidence.map fun m =>
    (((Dict.get? m "role").bind PyValue.str?).getD "?") ++ ": " ++
      contentText (Dict.get? m "content"))
  fileState _ := .ok ""
  validatedSummary
    | .str s =>
        if s = emptyRecap ++ "\n<variant1-recap-complete/>" then .ok emptyRecap
        else .error "missing_terminal_sentinel"
    | _ => .error "empty_summary"

/-- The completer returns the recap and nobody stops the run. -/
def undisturbed : Circumstances :=
  ⟨true, true, some (.str (emptyRecap ++ "\n<variant1-recap-complete/>")), false⟩

def said (role text : String) : PyDict := [("role", .str role), ("content", .str text)]

/-- A request with one call of a tool, and two more requests. -/
def oneTurn : Store :=
  [said "user" "read a",
    [("role", .str "assistant"), ("content", .str ""),
      ("tool_calls", .list [.dict [("id", .str "c1")]])],
    [("role", .str "tool"), ("tool_call_id", .str "c1"), ("content", .str "text of a")],
    said "assistant" "done", said "user" "and b", said "assistant" "b?", said "assistant" "done",
    said "user" "thanks"]

/-- The boundary inside the turn moves to its end, and the request in the middle stays. -/
theorem compressMessages_spec_oneTurn :
    ∃ store' out, compressMessages plainTexts undisturbed 2 1 oneTurn [0, 1, 2, 3, 4, 5, 6, 7] =
        .ok (store', out) ∧ out.length = 6 ∧
      Compacted plainTexts.toInterpreter
        (bounds (load oneTurn [0, 1, 2, 3, 4, 5, 6, 7]) 2 1)
        (load oneTurn [0, 1, 2, 3, 4, 5, 6, 7]) (load store' out) := by
  have hrun : (compressMessages plainTexts undisturbed 2 1 oneTurn [0, 1, 2, 3, 4, 5, 6, 7] >>=
      fun p => .ok p.2.length).toOption = some 6 := by
    decide +kernel
  obtain ⟨⟨store', out⟩, hout, h⟩ := except_bind_eq_ok.mp (except_eq_ok_of_toOption hrun)
  have hlength : out.length = 6 := Except.ok.inj h
  have hvalid : ∀ a ∈ [0, 1, 2, 3, 4, 5, 6, 7], a < oneTurn.length := by decide
  have hturns : toolTurns.WellFormed (load oneTurn [0, 1, 2, 3, 4, 5, 6, 7]) :=
    .plain rfl rfl (@TurnShape.WellFormed.turn _ toolTurns oneTurn[1] [oneTurn[2]]
      (load oneTurn [3, 4, 5, 6, 7]) rfl (by decide) (List.Perm.refl _)
      (TurnShape.wellFormed_of_plain (by decide)))
  refine ⟨store', out, hout, hlength, ?_⟩
  rcases ((compressMessages_spec plainTexts undisturbed 2 1 oneTurn _ hvalid hturns).1
    store' out hout).2 with ⟨-, rfl, -⟩ | ⟨-, -, hcompacted⟩
  · exact absurd hlength (by decide)
  · exact hcompacted

/-- A transcript whose first message carries a receipt. -/
def receiptStore (role : String) : Store :=
  [said role "go" ++ [(reservedMessageKey, .dict [])], said "assistant" "a",
    said "assistant" "b", said "assistant" "c", said "user" "more"]

theorem receipt_rewritten {role : String} (hrole : role = "system" ∨ role = "user") :
    toolTurns.WellFormed (load (receiptStore role) [0, 1, 2, 3, 4]) ∧
      ∃ store' out, compressMessages plainTexts undisturbed 1 1 (receiptStore role) [0, 1, 2, 3, 4] =
          .ok (store', out) ∧
        out ≠ [0, 1, 2, 3, 4] ∧ cell (receiptStore role) 0 ∉ load store' out := by
  have hrun : (compressMessages plainTexts undisturbed 1 1 (receiptStore role) [0, 1, 2, 3, 4] >>=
      fun p => .ok (p.2.length, (load p.1 p.2).map fun m => (receipt? m).map List.length)
        ).toOption = some (3, [some 2, none, none]) := by
    rcases hrole with rfl | rfl
    · decide +kernel
    · decide +kernel
  have hplain : toolTurns.WellFormed (load (receiptStore role) [0, 1, 2, 3, 4]) := by
    rcases hrole with rfl | rfl
    · exact TurnShape.wellFormed_of_plain (by decide)
    · exact TurnShape.wellFormed_of_plain (by decide)
  have hempty : (receipt? (cell (receiptStore role) 0)).map List.length = some 0 := by
    rcases hrole with rfl | rfl
    · decide
    · decide
  obtain ⟨⟨store', out⟩, hout, h⟩ := except_bind_eq_ok.mp (except_eq_ok_of_toOption hrun)
  obtain ⟨hlength, hreceipts⟩ := Prod.mk.inj (Except.ok.inj h)
  refine ⟨hplain, store', out, hout, ?_, ?_⟩
  · intro heq
    rw [heq] at hlength
    exact absurd hlength (by simp)
  · intro hmem
    have := List.mem_map_of_mem (f := fun m => (receipt? m).map List.length) hmem
    rw [hreceipts, hempty] at this
    exact absurd this (by decide)

/-- **The compaction is recorded in the first receipt.**  A system message that is to be kept, with a
receipt, does not stand in the result as it was; nor does a request, where the receipt is there. -/
theorem receipt_annotated :
    (toolTurns.WellFormed (load (receiptStore "system") [0, 1, 2, 3, 4]) ∧
      ∃ store' out, compressMessages plainTexts undisturbed 1 1 (receiptStore "system")
          [0, 1, 2, 3, 4] = .ok (store', out) ∧
        out ≠ [0, 1, 2, 3, 4] ∧ cell (receiptStore "system") 0 ∉ load store' out) ∧
      isGenuineUserMessage plainTexts.toInterpreter (cell (receiptStore "user") 0) = true ∧
        toolTurns.WellFormed (load (receiptStore "user") [0, 1, 2, 3, 4]) ∧
          ∃ store' out, compressMessages plainTexts undisturbed 1 1 (receiptStore "user")
              [0, 1, 2, 3, 4] = .ok (store', out) ∧
            out ≠ [0, 1, 2, 3, 4] ∧ cell (receiptStore "user") 0 ∉ load store' out :=
  ⟨receipt_rewritten (.inl rfl), by decide +kernel, receipt_rewritten (.inr rfl)⟩

end Transcript
end VariantOne
