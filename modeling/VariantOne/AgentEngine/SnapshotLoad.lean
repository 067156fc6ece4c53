import VariantOne.AgentEngine.SnapshotChain
import VariantOne.AgentEngine.SnapshotScrub

/-!
# Loading what was committed

Loading a boundary compares its state with the columns of its thread, which are those of the
newest boundary.  So an older boundary is readable only as long as the thread keeps its
source and its chat; and a state is readable only if what is compared reads the same off its
document as it did off the state (`ReadsBack`).  Where every step is such, every boundary of
a live thread is loaded (`Loadable`).

`committed_boundaries_load` is the result for every run whose steps read back, and `older_boundary_unreadable`
a run in which the second commit carries another chat id.  A copy is readable because its original was:
only its thread, and for a prefix its run and its chat, are new.
-/

namespace VariantOne
namespace AgentEngine

variable {C : SnapshotCodec} {db db' : SnapshotDb}

/-! ## 1.  A boundary that loads -/

/-- What loading checks of a boundary of a thread. -/
structure SnapshotCodec.Readable (C : SnapshotCodec) (t : ThreadRow) (r : SnapshotRow) : Prop where
  codec : r.codecVersion = codecVersion ∧ r.privacyRevision = privacyRevision
  clean : C.cleanDoc r.stateBlob = true
  fits : C.fits r.stateBlob = true
  checksum : C.payloadChecksum r.stateBlob r.completedNode r.nextNode codecVersion privacyRevision =
    r.payloadSha256
  valid : C.validateRunState r.stateBlob r.completedNode r.nextNode = .ok ()
  stored : storedDoc r.stateBlob = r.stateBlob
  thread : C.stateThreadId r.stateBlob = r.threadId
  run : (C.stateFields r.stateBlob).runId = r.runId
  owner : (C.stateFields r.stateBlob).source = t.source ∧ (C.stateFields r.stateBlob).chatId = t.chatId
  named : ∃ u, r.snapshotId = newSnapshotId u

theorem strip_newSnapshotId (u : BitVec 128) :
    strip (newSnapshotId u) = newSnapshotId u ∧ newSnapshotId u ≠ "" := by
  have hlist : (newSnapshotId u).toList = ['s', 'n', 'a', 'p', '_'] ++ uuidHex u := by
    rw [newSnapshotId, newId, String.toList_append, String.toList_ofList]
    rfl
  constructor
  · refine strip_of_forall fun c hc => ?_
    rw [hlist, List.mem_append] at hc
    rcases hc with hc | hc
    · simp only [List.mem_cons, List.not_mem_nil, or_false] at hc
      rcases hc with rfl | rfl | rfl | rfl | rfl <;> decide
    · obtain ⟨i, -, rfl⟩ := List.mem_map.mp hc
      exact (digitChar_lt_sixteen (Nat.mod_lt _ (by decide))).1
  · intro hempty
    rw [hempty] at hlist
    exact absurd hlist (by simp)

/-- **A readable boundary passes the checks of its state**: what is left to compare are the
columns of the thread that it is loaded for. -/
theorem SnapshotCodec.Readable.storedFromRow_eq {t t' : ThreadRow} {r : SnapshotRow}
    (h : C.Readable t' r) (hthread : r.threadId = t.threadId) (historical : Bool) :
    C.storedFromRow t r historical = (do
      let fields := C.stateFields r.stateBlob
      match indexMismatch fields t r historical with
      | some field => throw (.unavailable s!"native snapshot {field} index mismatch: {r.snapshotId}")
      | none =>
          return { cursor := ⟨t.threadId, r.seq, r.snapshotId⟩, parentSnapshotId := r.parentSnapshotId,
                   runId := if historical then fields.runId else t.runId,
                   source := if historical then fields.source else t.source,
                   status := if historical then fields.status else t.status,
                   completedNode := r.completedNode, nextNode := r.nextNode, state := r.stateBlob }) := by
  have hdecode : C.decodeState r.stateBlob r.codecVersion = .ok r.stateBlob := by
    unfold SnapshotCodec.decodeState
    rw [h.codec.1, h.fits]
    rfl
  have hscrub : C.scrubEntries (C.imageSource (entriesToPy r.stateBlob)) (entriesToPy r.stateBlob) "$" =
      .ok (r.stateBlob, 0) := scrubEntries_clean _ h.clean _
  have hrevision : decide (r.privacyRevision = AgentEngine.privacyRevision) = true :=
    decide_eq_true h.codec.2
  have hchecksum : decide (C.payloadChecksum r.stateBlob r.completedNode r.nextNode r.codecVersion
      r.privacyRevision = r.payloadSha256) = true :=
    decide_eq_true (by rw [h.codec.1, h.codec.2, h.checksum])
  have hidentity : decide (C.stateThreadId r.stateBlob = t.threadId) = true :=
    decide_eq_true (h.thread.trans hthread)
  have hclean : (decide ((0 : Nat) = 0) &&
      decide (Json.dumps (.obj r.stateBlob) = Json.dumps (.obj r.stateBlob))) = true := by simp
  unfold SnapshotCodec.storedFromRow
  rw [require_bind_of_true hrevision, hdecode, except_ok_bind, require_bind_of_true hchecksum, hscrub,
    except_ok_bind]
  dsimp only
  rw [require_bind_of_true hclean, h.valid, except_ok_bind]
  exact require_bind_of_true hidentity

theorem SnapshotCodec.Readable.storedFromRow {t : ThreadRow} {r : SnapshotRow} {historical : Bool}
    (h : C.Readable t r) (hthread : r.threadId = t.threadId)
    (hindex : indexMismatch (C.stateFields r.stateBlob) t r historical = none) :
    ∃ stored, C.storedFromRow t r historical = .ok stored ∧
      stored.cursor = ⟨t.threadId, r.seq, r.snapshotId⟩ ∧ stored.state = r.stateBlob := by
  rw [h.storedFromRow_eq hthread]
  dsimp only
  rw [hindex]
  exact ⟨_, rfl, rfl, rfl⟩

/-- The columns an older boundary is compared with. -/
theorem SnapshotCodec.Readable.historical {t : ThreadRow} {r : SnapshotRow} (h : C.Readable t r) :
    indexMismatch (C.stateFields r.stateBlob) t r true = none := by
  simp [indexMismatch, h.run, h.owner.1, h.owner.2]

/-! ## 2.  A boundary that was encoded -/

/-- The scrubbed state. -/
def SnapshotCodec.scrubbed (C : SnapshotCodec) (state : PyDict) : Except SnapshotError Doc :=
  (C.scrubEntries (C.imageSource state) state "$").map Prod.fst

theorem encodeSnapshot_eq_ok {state : PyDict} {completedNode nextNode : String} {e : EncodedSnapshot}
    (h : C.encodeSnapshot state completedNode nextNode = .ok e) :
    (∃ n, C.scrubEntries (C.imageSource state) state "$" = .ok (e.normalized, n)) ∧
      C.validateRunState e.normalized completedNode nextNode = .ok () ∧
      C.fits e.normalized = true ∧ e.stateBlob = storedDoc e.normalized ∧
      e.payloadSha256 =
        C.payloadChecksum e.normalized completedNode nextNode codecVersion privacyRevision := by
  unfold SnapshotCodec.encodeSnapshot at h
  obtain ⟨⟨normalized, n⟩, hscrub, h⟩ := except_bind_eq_ok.mp h
  dsimp only at h
  obtain ⟨u, hvalid, h⟩ := except_bind_eq_ok.mp h
  obtain ⟨hfits, h⟩ := require_bind_eq_ok.mp h
  obtain rfl := Except.ok.inj h
  exact ⟨⟨n, hscrub⟩, hvalid, hfits, rfl, rfl⟩

/-- What was encoded from a settled state is readable. -/
theorem readable_of_encoded (state : PyDict) {e : EncodedSnapshot} {t : ThreadRow} {r : SnapshotRow}
    (h : C.encodeSnapshot state r.completedNode r.nextNode = .ok e)
    (hsettled : settled e.normalized = true)
    (hstored : r.stateBlob = e.stateBlob ∧ r.payloadSha256 = e.payloadSha256)
    (hcodec : r.codecVersion = codecVersion ∧ r.privacyRevision = privacyRevision)
    (hthread : C.stateThreadId e.normalized = r.threadId)
    (hrun : (C.stateFields e.normalized).runId = r.runId)
    (howner : (C.stateFields e.normalized).source = t.source ∧
      (C.stateFields e.normalized).chatId = t.chatId)
    (hnamed : ∃ u, r.snapshotId = newSnapshotId u) : C.Readable t r := by
  obtain ⟨⟨n, hscrub⟩, hvalid, hfits, hblob, hsum⟩ := encodeSnapshot_eq_ok h
  have hr : r.stateBlob = storedDoc e.normalized := hstored.1.trans hblob
  refine ⟨hcodec, ?_, ?_, ?_, ?_, ?_, ?_, ?_, ?_, hnamed⟩
  · rw [hr]
    exact cleanDoc_storedDoc (scrubEntries_scrubEntries hscrub "$").1
  · rw [hr, fits_storedDoc, hfits]
  · rw [hr, payloadChecksum_storedDoc, ← hsum, hstored.2]
  · rw [hr, validateRunState_storedDoc hsettled hvalid]
  · rw [hr, storedDoc_storedDoc]
  · rw [hr, stateThreadId_storedDoc hsettled, hthread]
  · rw [hr, stateFields_storedDoc hsettled hvalid, hrun]
  · rw [hr, stateFields_storedDoc hsettled hvalid]
    exact howner

/-- What was read back is settled. -/
theorem settledAt_of_stored {es : Doc} (h : storedDoc es = es) (key : String) :
    settledAt es key = true := by
  refine settledAt_iff.mpr fun v hv => ?_
  have hcanon := get?_storedDoc es key
  rw [h, hv, Option.map_some] at hcanon
  exact (Option.some.inj hcanon).symm

theorem storedDoc_subDoc {es : Doc} (h : storedDoc es = es) (key : String) :
    storedDoc (subDoc es key) = subDoc es key := by
  rw [← subDoc_storedDoc, h]

/-- What is compared depends on a few fields. -/
theorem stateFields_congr {es es' : Doc}
    (h : ∀ key ∈ ["run_id", "source", "chat_id", "status", "task", "output"],
      Dict.get? es' key = Dict.get? es key) : C.stateFields es' = C.stateFields es := by
  have hsub : ∀ key ∈ ["run_id", "source", "chat_id", "status", "task", "output"],
      subDoc es' key = subDoc es key := fun key hkey => by rw [subDoc, subDoc, h key hkey]
  unfold SnapshotCodec.stateFields SnapshotCodec.field item
  dsimp only
  rw [h "run_id" (by decide), h "source" (by decide), h "chat_id" (by decide),
    h "status" (by decide), hsub "task" (by decide), hsub "output" (by decide)]

/-! ## 3.  Copies -/

theorem mem_set {es : Doc} {key : String} {v : Json} {p : String × Json}
    (h : p ∈ Dict.set es key v) : p ∈ es ∨ p = (key, v) := by
  induction es with
  | nil => exact .inr (List.mem_singleton.mp h)
  | cons q es ih =>
      obtain ⟨k, w⟩ := q
      rw [Dict.set] at h
      split at h
      · rename_i hk
        rcases List.mem_cons.mp h with rfl | h
        · exact .inr (Prod.ext hk rfl)
        · exact .inl (List.mem_cons_of_mem _ h)
      · rcases List.mem_cons.mp h with rfl | h
        · exact .inl List.mem_cons_self
        · exact (ih h).imp_left (List.mem_cons_of_mem _)

/-- Whether an object is an image source depends on two keys. -/
theorem imageSource_congr (es : Doc) {es' : Doc}
    (h : ∀ key ∈ ["type", "media_type"], Dict.get? es' key = Dict.get? es key) :
    C.imageSource (entriesToPy es') = C.imageSource (entriesToPy es) := by
  unfold SnapshotCodec.imageSource Interpreter.field
  rw [get?_entriesToPy, get?_entriesToPy, get?_entriesToPy, get?_entriesToPy, h "type" (by decide),
    h "media_type" (by decide)]

/-- The keys under which a copy writes its identities. -/
def identityKeys : List String := ["thread_id", "run_id", "chat_id", "task_id"]

theorem holdsImage_identity {source : Bool} {key text : String} (h : key ∈ identityKeys) :
    holdsImage source key text = false := by
  unfold identityKeys at h
  simp only [List.mem_cons, List.not_mem_nil, or_false] at h
  unfold holdsImage imageDataKeys
  rcases h with rfl | rfl | rfl | rfl <;> simp

theorem cleanEntry_identity {source : Bool} {key text : String} (h : key ∈ identityKeys)
    (himage : isInlineImage text = false) : C.CleanEntry source (key, .str text) := by
  refine ⟨holdsImage_identity h, ?_⟩
  rw [SnapshotCodec.clean, himage]
  rfl

theorem cleanEntry_of_get? {es : Doc} (h : C.cleanDoc es = true) {key : String} {v : Json}
    (hv : Dict.get? es key = some v) : C.CleanEntry (C.imageSource (entriesToPy es)) (key, v) :=
  cleanEntries_iff.mp h _ (Dict.mem_of_get? hv)

/-- A state stays clean under a clean thread. -/
theorem cleanDoc_set_thread {es : Doc} {target : String} (h : C.cleanDoc es = true)
    (himage : isInlineImage target = false) :
    C.cleanDoc (Dict.set es "thread_id" (.str target)) = true := by
  unfold SnapshotCodec.cleanDoc
  rw [imageSource_congr es]
  · refine cleanEntries_iff.mpr fun p hp => ?_
    rcases mem_set hp with hp | rfl
    · exact cleanEntries_iff.mp h p hp
    · exact cleanEntry_identity (by decide) himage
  · intro key hkey
    refine Dict.get?_set_of_ne ?_ _
    rintro rfl
    exact absurd hkey (by decide)

theorem firstText_str {s : String} (hs : s ≠ "") (rest : List (Option PyValue)) :
    C.firstText (some (.str s) :: rest) = s := by
  unfold SnapshotCodec.firstText
  rw [List.foldr_cons, orElse]
  simp [PyValue.truthy, hs, Interpreter.text]

theorem stateThreadId_of_get? {es : Doc} {thread : String}
    (h : Dict.get? es "thread_id" = some (.str thread)) (hne : thread ≠ "") :
    C.stateThreadId es = thread := by
  unfold SnapshotCodec.stateThreadId item
  rw [h]
  exact firstText_str hne _

/-- The copy of a readable boundary is readable, and its columns are those of the original. -/
theorem SnapshotCodec.CopyOf.readable {source target : String} {r r' : SnapshotRow} {t : ThreadRow}
    (hcopy : C.CopyOf source target r r') (h : C.Readable t r) (hne : target ≠ "")
    (himage : isInlineImage target = false) (hid : r'.threadId = target) :
    C.Readable t r' ∧ C.stateFields r'.stateBlob = C.stateFields r.stateBlob := by
  obtain ⟨e, he, hblob, hsum⟩ := hcopy.encoded
  obtain ⟨⟨n, hscrub⟩, hvalid, -, hdoc, -⟩ := encodeSnapshot_eq_ok he
  -- the copied state is clean, so it is encoded as it is
  have hnormal : e.normalized = Dict.set r.stateBlob "thread_id" (.str target) := by
    rw [scrubEntries_clean _ (cleanDoc_set_thread h.clean himage)] at hscrub
    exact (Prod.mk.inj (Except.ok.inj hscrub)).1.symm
  have hget : ∀ key, key ≠ "thread_id" →
      Dict.get? e.normalized key = Dict.get? r.stateBlob key := fun key hkey => by
    rw [hnormal, Dict.get?_set_of_ne hkey.symm]
  have hthread : Dict.get? e.normalized "thread_id" = some (.str target) := by
    rw [hnormal, Dict.get?_set_self]
  have hsettledAt : ∀ key, settledAt e.normalized key = true := fun key => by
    by_cases hkey : key = "thread_id"
    · subst hkey
      refine settledAt_iff.mpr fun v hv => ?_
      rw [hthread, Option.some.injEq] at hv
      rw [← hv, Json.canon]
    · rw [settledAt, hget key hkey]
      exact settledAt_of_stored h.stored key
  have hsettled : settled e.normalized = true := by
    unfold settled
    rw [Bool.and_eq_true, List.all_eq_true, Bool.or_eq_true]
    refine ⟨fun key _ => hsettledAt key, .inr ?_⟩
    rw [subDoc, hget "task" (by decide), ← subDoc]
    exact settledAt_of_stored (storedDoc_subDoc h.stored _) _
  have hfields : C.stateFields e.normalized = C.stateFields r.stateBlob :=
    stateFields_congr fun key hkey => hget key (by rintro rfl; exact absurd hkey (by decide))
  refine ⟨readable_of_encoded _ (by rw [hcopy.nodes.1, hcopy.nodes.2]; exact he) hsettled
    ⟨hblob, hsum⟩ hcopy.codec ?_ ?_ ?_ hcopy.named, ?_⟩
  · rw [hid, stateThreadId_of_get? hthread hne]
  · rw [hfields, h.run, hcopy.runId]
  · rw [hfields]
    exact h.owner
  · rw [hblob, hdoc, stateFields_storedDoc hsettled hvalid, hfields]

/-! ## 4.  Prefix copies -/

theorem get?_ite_set {es : Doc} {c : Prop} [Decidable c] {key key' : String} {v : Json}
    (h : key' ≠ key) : Dict.get? (if c then Dict.set es key v else es) key' = Dict.get? es key' := by
  split
  · exact Dict.get?_set_of_ne h.symm _
  · rfl

theorem get?_retaskedState {target : CopyTarget} {run key : String} {es : Doc} (h : key ≠ "task") :
    Dict.get? (C.retaskedState target run es) key = Dict.get? es key := by
  unfold SnapshotCodec.retaskedState
  split
  · exact Dict.get?_set_of_ne h.symm _
  · rfl

/-- A prefix copy writes its identities and its task, and nothing else. -/
theorem get?_retargetedState {target : CopyTarget} {run key : String} {es : Doc}
    (h : key ∉ ["thread_id", "run_id", "chat_id", "task"]) :
    Dict.get? (C.retargetedState target run es) key = Dict.get? es key := by
  simp only [List.mem_cons, List.not_mem_nil, or_false, not_or] at h
  unfold SnapshotCodec.retargetedState
  dsimp only
  rw [get?_retaskedState h.2.2.2, get?_ite_set h.2.2.1, get?_ite_set h.2.1,
    Dict.get?_set_of_ne (Ne.symm h.1)]

theorem get?_retargetedState_thread (target : CopyTarget) (run : String) (es : Doc) :
    Dict.get? (C.retargetedState target run es) "thread_id" = some (.str target.threadId) := by
  unfold SnapshotCodec.retargetedState
  dsimp only
  rw [get?_retaskedState (by decide), get?_ite_set (by decide), get?_ite_set (by decide),
    Dict.get?_set_self]

theorem get?_retargetedState_run (target : CopyTarget) (run : String) (es : Doc) :
    Dict.get? (C.retargetedState target run es) "run_id" = some (.str target.runId) ∨
      Dict.get? (C.retargetedState target run es) "run_id" = Dict.get? es "run_id" := by
  unfold SnapshotCodec.retargetedState
  dsimp only
  rw [get?_retaskedState (by decide), get?_ite_set (by decide)]
  split
  · rw [Dict.get?_set_self]
    exact .inl rfl
  · rw [Dict.get?_set_of_ne (by decide)]
    exact .inr rfl

theorem get?_ite_set_chat (chat : String) (es : Doc) :
    Dict.get? (if chat ≠ "" ∨ (Dict.get? es "chat_id").isSome then
        Dict.set es "chat_id" (.str chat) else es) "chat_id" = some (.str chat) ∨
      chat = "" ∧ Dict.get? (if chat ≠ "" ∨ (Dict.get? es "chat_id").isSome then
        Dict.set es "chat_id" (.str chat) else es) "chat_id" = none := by
  split
  · rw [Dict.get?_set_self]
    exact .inl rfl
  · rename_i hchat
    rw [not_or, not_not, Bool.not_eq_true, Option.isSome_eq_false_iff, Option.isNone_iff_eq_none]
      at hchat
    exact .inr hchat

theorem get?_retargetedState_chat (target : CopyTarget) (run : String) (es : Doc) :
    Dict.get? (C.retargetedState target run es) "chat_id" = some (.str target.chatId) ∨
      target.chatId = "" ∧ Dict.get? (C.retargetedState target run es) "chat_id" = none := by
  unfold SnapshotCodec.retargetedState
  dsimp only
  rw [get?_retaskedState (by decide)]
  exact get?_ite_set_chat _ _

theorem get?_retaskedState_task (target : CopyTarget) (run : String) {es es' : Doc}
    (h : Dict.get? es' "task" = Dict.get? es "task") :
    Dict.get? (C.retaskedState target run es') "task" = Dict.get? es "task" ∨
      ∃ task, Dict.get? es "task" = some (.obj task) ∧
        Dict.get? (C.retaskedState target run es') "task" =
          some (.obj (Dict.set task "task_id" (.str target.runId))) := by
  unfold SnapshotCodec.retaskedState
  split
  · rename_i task hk
    rw [Dict.get?_set_self]
    split
    · exact .inr ⟨task, by rw [← h, hk], rfl⟩
    · exact .inl (by rw [← h, hk])
  · exact .inl h

/-- The task of a prefix copy is the task there was, but for its id. -/
theorem get?_retargetedState_task (target : CopyTarget) (run : String) (es : Doc) :
    Dict.get? (C.retargetedState target run es) "task" = Dict.get? es "task" ∨
      ∃ task, Dict.get? es "task" = some (.obj task) ∧
        Dict.get? (C.retargetedState target run es) "task" =
          some (.obj (Dict.set task "task_id" (.str target.runId))) := by
  unfold SnapshotCodec.retargetedState
  dsimp only
  refine get?_retaskedState_task target run ?_
  rw [get?_ite_set (by decide), get?_ite_set (by decide), Dict.get?_set_of_ne (by decide)]

section Scrubbed

variable {source : Bool} {es : Doc} {path : String} {r : Doc × Nat}

/-- A key whose entry is clean keeps its value. -/
theorem get?_scrub_of_clean (h : C.scrubEntries source (entriesToPy es) path = .ok r) {key : String}
    (hclean : ∀ v, Dict.get? es key = some v → C.CleanEntry source (key, v)) :
    Dict.get? r.1 key = Dict.get? es key := by
  have hrel := get?_scrubEntries (k := key) h
  rw [get?_entriesToPy] at hrel
  cases hv : Dict.get? es key with
  | none =>
      rw [hv] at hrel
      generalize Dict.get? r.1 key = o at hrel
      cases hrel
      rfl
  | some v =>
      rw [hv] at hrel
      generalize Dict.get? r.1 key = o at hrel
      cases hrel with
      | some hj => rw [hj.of_clean (hclean v hv)]

/-- An identity stays, unless it is an image. -/
theorem get?_scrub_identity (h : C.scrubEntries source (entriesToPy es) path = .ok r)
    {key text : String} (hkey : key ∈ identityKeys) (hv : Dict.get? es key = some (.str text)) :
    Dict.get? r.1 key = some (.str (if isInlineImage text then "" else text)) := by
  have hrel := get?_scrubEntries (k := key) h
  rw [get?_entriesToPy, hv] at hrel
  generalize Dict.get? r.1 key = o at hrel
  cases hrel with
  | some hj =>
      rcases hj with ⟨himage, -⟩ | ⟨-, path, n, hj⟩
      · rw [str?_toPy, jsonText, Option.any_some, holdsImage_identity hkey] at himage
        cases himage
      · rw [Json.toPy, SnapshotCodec.normalizeAndScrub] at hj
        split at hj
        · rename_i himage
          cases hj
          rw [if_pos himage]
        · rename_i himage
          cases hj
          rw [if_neg himage]

theorem get?_scrub_obj (h : C.scrubEntries source (entriesToPy es) path = .ok r) {key : String}
    {entries : Doc} (hv : Dict.get? es key = some (.obj entries)) :
    ∃ r' path', Dict.get? r.1 key = some (.obj r'.1) ∧
      C.scrubEntries (C.imageSource (entriesToPy entries)) (entriesToPy entries) path' = .ok r' := by
  have hrel := get?_scrubEntries (k := key) h
  rw [get?_entriesToPy, hv] at hrel
  generalize Dict.get? r.1 key = o at hrel
  cases hrel with
  | some hj =>
      obtain ⟨r', path', rfl, hr'⟩ := hj.of_obj
      exact ⟨r', path', rfl, hr'⟩

end Scrubbed

theorem settledAt_text {es : Doc} {key text : String} (h : Dict.get? es key = some (.str text)) :
    settledAt es key = true := by
  refine settledAt_iff.mpr fun v hv => ?_
  rw [h, Option.some.injEq] at hv
  rw [← hv, Json.canon]

theorem settledAt_congr {es' : Doc} (es : Doc) {key : String}
    (h : Dict.get? es' key = Dict.get? es key) : settledAt es' key = settledAt es key := by
  rw [settledAt, settledAt, h]

/-- The identities of a copy, as they are written. -/
def CopyTarget.chat (target : CopyTarget) : String :=
  if isInlineImage target.chatId then "" else target.chatId

/-- A prefix copy of a readable state is settled, under its thread, its chat and the source
there was. -/
theorem settled_retargetedState {target : CopyTarget} {run : String} {es : Doc} {r : Doc × Nat}
    (hclean : C.cleanDoc es = true) (hstored : storedDoc es = es)
    (hne : target.threadId ≠ "") (himage : isInlineImage target.threadId = false)
    (h : C.scrubEntries (C.imageSource (entriesToPy (C.retargetedState target run es)))
      (entriesToPy (C.retargetedState target run es)) "$" = .ok r) :
    settled r.1 = true ∧ C.stateThreadId r.1 = target.threadId ∧
      (C.stateFields r.1).source = (C.stateFields es).source ∧
      (C.stateFields r.1).chatId = target.chat := by
  have hsource : C.imageSource (entriesToPy (C.retargetedState target run es)) =
      C.imageSource (entriesToPy es) :=
    imageSource_congr _ fun key hkey => get?_retargetedState (by
      rintro hmem
      simp only [List.mem_cons, List.not_mem_nil, or_false] at hkey hmem
      rcases hkey with rfl | rfl <;> simp at hmem)
  rw [hsource] at h
  have hkept : ∀ key, Dict.get? (C.retargetedState target run es) key = Dict.get? es key →
      Dict.get? r.1 key = Dict.get? es key := fun key hkey => by
    rw [get?_scrub_of_clean h fun v hv => cleanEntry_of_get? hclean (by rw [← hkey, hv]), hkey]
  have hother : ∀ key, key ∉ ["thread_id", "run_id", "chat_id", "task"] →
      Dict.get? r.1 key = Dict.get? es key := fun key hkey => hkept key (get?_retargetedState hkey)
  have hthread : Dict.get? r.1 "thread_id" = some (.str target.threadId) := by
    rw [get?_scrub_identity h (by decide) (get?_retargetedState_thread target run es), himage]
    rfl
  have hchat : Dict.get? r.1 "chat_id" = some (.str target.chat) ∨
      target.chat = "" ∧ Dict.get? r.1 "chat_id" = none := by
    rcases get?_retargetedState_chat (C := C) target run es with hk | ⟨hempty, hk⟩
    · exact .inl (get?_scrub_identity h (by decide) hk)
    · refine .inr ⟨by rw [CopyTarget.chat, hempty]; decide, ?_⟩
      rw [get?_scrub_of_clean h (fun v hv => by rw [hk] at hv; cases hv), hk]
  have hchecked : ∀ key ∈ comparedFields, settledAt r.1 key = true := by
    intro key hkey
    by_cases hwritten : key ∈ ["thread_id", "run_id", "chat_id", "task"]
    · simp only [List.mem_cons, List.not_mem_nil, or_false] at hwritten
      rcases hwritten with rfl | rfl | rfl | rfl
      · exact settledAt_text hthread
      · rcases get?_retargetedState_run (C := C) target run es with hk | hk
        · exact settledAt_text (get?_scrub_identity h (by decide) hk)
        · rw [settledAt_congr _ (hkept _ hk)]
          exact settledAt_of_stored hstored _
      · rcases hchat with hk | ⟨-, hk⟩
        · exact settledAt_text hk
        · rw [settledAt, hk]
          rfl
      · exact absurd hkey (by decide)
    · rw [settledAt_congr _ (hother key hwritten)]
      exact settledAt_of_stored hstored _
  have htask : settledAt (subDoc r.1 "task") "task_id" = true := by
    rcases get?_retargetedState_task (C := C) target run es with hk | ⟨task, hes, hk⟩
    · rw [subDoc, hkept _ hk, ← subDoc]
      exact settledAt_of_stored (storedDoc_subDoc hstored "task") _
    · obtain ⟨r', path, hr, hr'⟩ := get?_scrub_obj h hk
      rw [show subDoc r.1 "task" = r'.1 by rw [subDoc, hr]]
      exact settledAt_text (get?_scrub_identity hr' (by decide) (Dict.get?_set_self _ _ _))
  refine ⟨?_, stateThreadId_of_get? hthread hne, ?_, ?_⟩
  · unfold settled
    rw [Bool.and_eq_true, List.all_eq_true, Bool.or_eq_true]
    exact ⟨hchecked, .inr htask⟩
  · show C.field r.1 "source" = C.field es "source"
    rw [SnapshotCodec.field, SnapshotCodec.field, item, item, hother "source" (by decide)]
  · show C.field r.1 "chat_id" = target.chat
    unfold SnapshotCodec.field item
    rcases hchat with hk | ⟨hempty, hk⟩
    · rw [hk]
      by_cases hchat : target.chat = ""
      · rw [hchat]
        rfl
      · exact firstText_str hchat _
    · rw [hk, hempty]
      rfl

theorem SnapshotCodec.PrefixCopyOf.owner {source run : String} {target : CopyTarget}
    {r : SnapshotRow} {p : PreparedCopy} {t : ThreadRow}
    (hcopy : C.PrefixCopyOf source run target r p) (h : C.Readable t r)
    (hne : target.threadId ≠ "") (himage : isInlineImage target.threadId = false) :
    p.fields.source = t.source ∧ p.fields.chatId = target.chat := by
  obtain ⟨e, he, -, -, hfields⟩ := hcopy.encoded
  obtain ⟨⟨n, hscrub⟩, -⟩ := encodeSnapshot_eq_ok he
  obtain ⟨-, -, hsource, hchat⟩ := settled_retargetedState h.clean h.stored hne himage hscrub
  rw [hfields]
  exact ⟨hsource.trans h.owner.1, hchat⟩

/-- A boundary of a copied prefix is readable. -/
theorem SnapshotCodec.PrefixCopyOf.readable {source run : String} {target : CopyTarget}
    {r r' : SnapshotRow} {p : PreparedCopy} {t : ThreadRow} (t' : ThreadRow)
    (hcopy : C.PrefixCopyOf source run target r p) (hrow : p.Row target.threadId r')
    (h : C.Readable t r) (hne : target.threadId ≠ "")
    (himage : isInlineImage target.threadId = false) (hid : r'.threadId = target.threadId)
    (howner : t'.source = t.source ∧ t'.chatId = target.chat) :
    C.Readable t' r' ∧ C.stateFields r'.stateBlob = p.fields := by
  obtain ⟨e, he, hblob, hsum, hfields⟩ := hcopy.encoded
  obtain ⟨⟨n, hscrub⟩, hvalid, -, hdoc, -⟩ := encodeSnapshot_eq_ok he
  obtain ⟨hsettled, hthread, hsource, hchat⟩ :=
    settled_retargetedState h.clean h.stored hne himage hscrub
  dsimp only at hsettled hthread hsource hchat
  rw [← hcopy.nodes.1, ← hcopy.nodes.2, ← hrow.nodes.1, ← hrow.nodes.2] at he
  refine ⟨readable_of_encoded _ he hsettled ⟨hrow.stored.1.trans hblob, hrow.stored.2.trans hsum⟩
    hrow.codec (hthread.trans hid.symm) ?_ ?_ hrow.named, ?_⟩
  · rw [hrow.runId, hfields]
  · rw [hsource, hchat, howner.1, howner.2]
    exact ⟨h.owner.1, rfl⟩
  · rw [hrow.stored.1, hblob, hdoc, stateFields_storedDoc hsettled hvalid, hfields]

/-! ## 5.  The store -/

/-- The boundaries of live threads load, and the columns of a thread are those of its newest
boundary. -/
structure SnapshotCodec.Loadable (C : SnapshotCodec) (db : SnapshotDb) : Prop where
  rows : ∀ k t, db.liveThread k = some t → ∀ r ∈ db.rowsOf k, C.Readable t r
  head : ∀ k t, db.liveThread k = some t → ∀ r, (db.rowsOf k).getLast? = some r →
    C.stateFields r.stateBlob = t.toStateFields
  named : ∀ k t, db.liveThread k = some t → strip k = k ∧ k ≠ ""

/-- A boundary stays readable while its thread keeps its source and its chat. -/
theorem SnapshotCodec.Readable.of_owner {t t' : ThreadRow} {r : SnapshotRow} (h : C.Readable t r)
    (howner : t'.source = t.source ∧ t'.chatId = t.chatId) : C.Readable t' r := by
  refine { h with owner := ?_ }
  rw [howner.1, howner.2]
  exact h.owner

/-- What a new boundary has to be for its thread to stay readable. -/
structure SnapshotCodec.Fitting (C : SnapshotCodec) (db : SnapshotDb) (owner after : ThreadRow)
    (new : List SnapshotRow) : Prop where
  kept : db.liveThread owner.threadId = some owner →
    after.source = owner.source ∧ after.chatId = owner.chatId
  named : strip owner.threadId = owner.threadId ∧ owner.threadId ≠ ""
  readable : ∀ r ∈ new, C.Readable after r
  head : ∀ r, new.getLast? = some r → C.stateFields r.stateBlob = after.toStateFields
  some : new ≠ []

theorem Extended.liveThread {owner after : ThreadRow} {new : List SnapshotRow}
    (hext : Extended db db' owner after new) (k : String) :
    db'.liveThread k = if k = owner.threadId then some after else db.liveThread k := by
  unfold SnapshotDb.liveThread
  rw [hext.threads]
  split
  · rw [Option.filter_some, if_pos (by simp [hext.live.2])]
  · rfl

theorem SnapshotCodec.Loadable.extended (h : C.Loadable db) (hc : Chained db)
    {owner after : ThreadRow} {new : List SnapshotRow} (hext : Extended db db' owner after new)
    (hfit : C.Fitting db owner after new) : C.Loadable db' := by
  have hrows := SnapshotDb.rowsOf_append hext.rows hext.owned
  refine ⟨fun k t hk r hr => ?_, fun k t hk r hr => ?_, fun k t hk => ?_⟩
  · rw [hext.liveThread] at hk
    rw [hrows] at hr
    by_cases hkey : k = owner.threadId
    · rw [if_pos hkey] at hk hr
      obtain rfl := Option.some.inj hk
      rcases List.mem_append.mp hr with hr | hr
      · -- an earlier boundary of the thread: its row was there
        rw [hkey] at hr
        rcases hext.opened with ⟨hnone, -⟩ | hfind
        · rw [hc.unknown _ hnone] at hr
          cases hr
        · have hlive := liveThread_eq_some_iff.mpr ⟨hfind, hext.live.1⟩
          exact (h.rows _ _ hlive r hr).of_owner (hfit.kept hlive)
      · exact hfit.readable r hr
    · rw [if_neg hkey] at hk hr
      rw [List.append_nil] at hr
      exact h.rows k t hk r hr
  · rw [hext.liveThread] at hk
    rw [hrows] at hr
    by_cases hkey : k = owner.threadId
    · rw [if_pos hkey] at hk hr
      obtain rfl := Option.some.inj hk
      rw [List.getLast?_append_of_ne_nil _ hfit.some] at hr
      exact hfit.head r hr
    · rw [if_neg hkey] at hk hr
      rw [List.append_nil] at hr
      exact h.head k t hk r hr
  · rw [hext.liveThread] at hk
    by_cases hkey : k = owner.threadId
    · rw [hkey]
      exact hfit.named
    · rw [if_neg hkey] at hk
      exact h.named k t hk

theorem Deleted.liveThread {k j : String} {old : Option ThreadRow} {now : ℚ}
    (hdel : Deleted db db' k old now) {t : ThreadRow} (h : db'.liveThread j = some t) :
    j ≠ k ∧ db.liveThread j = some t := by
  obtain ⟨hfind, htomb⟩ := liveThread_eq_some_iff.mp h
  have hj : j ≠ k := by
    rintro rfl
    obtain ⟨t', ht', htomb'⟩ := hdel.tombstone
    rw [ht', Option.some.injEq] at hfind
    rw [← hfind, htomb'] at htomb
    cases htomb
  exact ⟨hj, liveThread_eq_some_iff.mpr ⟨by rw [← hdel.threads j hj, hfind], htomb⟩⟩

theorem SnapshotCodec.Loadable.deleted (h : C.Loadable db) (hc : Chained db) {k : String}
    {old : Option ThreadRow} {now : ℚ} (hdel : Deleted db db' k old now) : C.Loadable db' := by
  refine ⟨fun j t hj r hr => ?_, fun j t hj r hr => ?_, fun j t hj => ?_⟩
  · obtain ⟨hne, hlive⟩ := hdel.liveThread hj
    rw [hdel.rowsOf hc, if_neg hne] at hr
    exact h.rows j t hlive r hr
  · obtain ⟨hne, hlive⟩ := hdel.liveThread hj
    rw [hdel.rowsOf hc, if_neg hne] at hr
    exact h.head j t hlive r hr
  · exact h.named j t (hdel.liveThread hj).2

theorem SnapshotCodec.Loadable.initialized (h : C.Loadable db) : C.Loadable db.initIndex := by
  have hthreads : db.initIndex.threads = db.threads := by
    unfold SnapshotDb.initIndex
    cases db.index <;> rfl
  have hsnapshots : db.initIndex.snapshots = db.snapshots := by
    unfold SnapshotDb.initIndex
    cases db.index <;> rfl
  have hlive : ∀ k, db.initIndex.liveThread k = db.liveThread k := fun k => by
    rw [SnapshotDb.liveThread, SnapshotDb.liveThread, hthreads]
  have hrows : ∀ k, db.initIndex.rowsOf k = db.rowsOf k := fun k => by
    rw [SnapshotDb.rowsOf, SnapshotDb.rowsOf, hsnapshots]
  refine ⟨fun k t hk => ?_, fun k t hk => ?_, fun k t hk => ?_⟩
  · rw [hrows]
    exact h.rows k t (by rw [← hlive, hk])
  · rw [hrows]
    exact h.head k t (by rw [← hlive, hk])
  · exact h.named k t (by rw [← hlive, hk])

/-! ## 6.  Steps that read back -/

/-- A commit whose state is settled, whose thread needs no stripping, and which keeps the
source and the chat of a thread that is there; a copy to a thread whose name is no image. -/
def SnapshotCodec.ReadsBack (C : SnapshotCodec) (db : SnapshotDb) : SnapshotOp → Prop
  | .commit state _ _ expected _ => ∀ normalized, C.scrubbed state = .ok normalized →
      settled normalized = true ∧ strip (C.stateThreadId normalized) = C.stateThreadId normalized ∧
      ∀ t, db.liveThread (C.stateThreadId normalized) = some t →
        fenced t.headSeq expected = true →
          (C.stateFields normalized).source = t.source ∧ (C.stateFields normalized).chatId = t.chatId
  | .copy _ target _ => isInlineImage (strip target) = false
  | .copyThrough _ target _ => isInlineImage (strip target.threadId) = false
  | .delete .. => True
  | .initIndex => True

theorem prepareBoundary_eq_ok {state : PyDict} {completedNode nextNode : String}
    {p : PreparedBoundary} (h : C.prepareBoundary state completedNode nextNode = .ok p) :
    ∃ e, C.encodeSnapshot state p.completedNode p.nextNode = .ok e ∧
      p.threadId = strip (C.stateThreadId e.normalized) ∧ p.threadId ≠ "" ∧
      p.fields = C.stateFields e.normalized ∧ p.stateBlob = e.stateBlob ∧
      p.payloadSha256 = e.payloadSha256 := by
  unfold SnapshotCodec.prepareBoundary at h
  dsimp only at h
  obtain ⟨-, h⟩ := require_bind_eq_ok.mp h
  obtain ⟨e, he, h⟩ := except_bind_eq_ok.mp h
  obtain ⟨hthread, h⟩ := require_bind_eq_ok.mp h
  obtain rfl := Except.ok.inj h
  exact ⟨e, he, rfl, by simpa using hthread, rfl, rfl, rfl⟩

theorem scrubbed_of_encoded {state : PyDict} {completedNode nextNode : String} {e : EncodedSnapshot}
    (h : C.encodeSnapshot state completedNode nextNode = .ok e) :
    C.scrubbed state = .ok e.normalized := by
  obtain ⟨⟨n, hscrub⟩, -⟩ := encodeSnapshot_eq_ok h
  rw [SnapshotCodec.scrubbed, hscrub]
  rfl

/-- A commit that reads back adds a boundary that fits its thread. -/
theorem fitting_commit {state : PyDict} {completedNode nextNode : String} {expected : Option Int}
    {u : BitVec 128} {p : PreparedBoundary} {owner : ThreadRow}
    (hcond : C.ReadsBack db (.commit state completedNode nextNode expected u))
    (hp : C.prepareBoundary state completedNode nextNode = .ok p)
    (hid : owner.threadId = p.threadId) (hfence : fenced owner.headSeq expected = true) :
    C.Fitting db owner (p.advance (owner.count + 1) (newSnapshotId u) owner)
      [p.row (owner.count + 1) (newSnapshotId u) owner.headId] := by
  obtain ⟨e, he, hthread, hne, hfields, hblob, hsum⟩ := prepareBoundary_eq_ok hp
  obtain ⟨hsettled, hstrip, hkept⟩ := hcond _ (scrubbed_of_encoded he)
  rw [hstrip] at hthread
  obtain ⟨-, hvalid, -, hdoc, -⟩ := encodeSnapshot_eq_ok he
  refine ⟨fun hlive => ?_, ?_, fun r hr => ?_, fun r hr => ?_, by simp⟩
  · have howner := hkept owner (by rw [← hthread, ← hid, hlive]) hfence
    rwa [← hfields] at howner
  · rw [hid, hthread]
    exact ⟨hstrip, hthread ▸ hne⟩
  · obtain rfl := List.mem_singleton.mp hr
    exact readable_of_encoded state he hsettled ⟨hblob, hsum⟩ ⟨rfl, rfl⟩ hthread.symm
      (by rw [← hfields]; rfl) (by rw [← hfields]; exact ⟨rfl, rfl⟩) ⟨u, rfl⟩
  · obtain rfl := Option.some.inj hr
    show C.stateFields p.stateBlob = p.fields
    rw [hblob, hdoc, stateFields_storedDoc hsettled hvalid, hfields]

theorem forall₂_exists_left {α β : Type} {R : α → β → Prop} {l : List α} {l' : List β}
    (h : List.Forall₂ R l l') {b : β} (hb : b ∈ l') : ∃ a ∈ l, R a b := by
  induction h with
  | nil => cases hb
  | cons hR _ ih =>
      rcases List.mem_cons.mp hb with rfl | hb
      · exact ⟨_, List.mem_cons_self, hR⟩
      · obtain ⟨a, ha, hab⟩ := ih hb
        exact ⟨a, List.mem_cons_of_mem _ ha, hab⟩

theorem forall₂_getLast? {α β : Type} {R : α → β → Prop} {l : List α} {l' : List β}
    (h : List.Forall₂ R l l') {b : β} (hb : l'.getLast? = some b) :
    ∃ a, l.getLast? = some a ∧ R a b := by
  induction h with
  | nil => cases hb
  | cons hR hrest ih =>
      cases hrest with
      | nil =>
          obtain rfl := Option.some.inj hb
          exact ⟨_, rfl, hR⟩
      | cons hR' hrest' =>
          rw [List.getLast?_cons_cons] at hb ⊢
          exact ih hb

/-- A copy of a thread fits it. -/
theorem fitting_copy {source target : String} {t : ThreadRow} {n : Nat} {new : List SnapshotRow}
    {headSeq : Option Nat} {headId : Option String} (h : C.Loadable db) (hc : Chained db)
    (htext : strip target ≠ "") (himage : isInlineImage (strip target) = false)
    (hsource : copySource db source = .ok (t, n)) (hlen : new.length = n) (howned : ∀ r ∈ new, r.threadId = strip target)
    (hcopies : List.Forall₂ (C.CopyOf source (strip target)) (db.boundaries source) new) :
    C.Fitting db ⟨t.toStateFields, strip target, none, none, none⟩
      ⟨t.toStateFields, strip target, headSeq, headId, none⟩ new := by
  obtain ⟨hfind, htomb, -⟩ := copySource_eq_ok hsource
  have hlive := liveThread_eq_some_iff.mpr ⟨hfind, htomb⟩
  rw [hc.boundaries_eq] at hcopies
  refine ⟨fun _ => ⟨rfl, rfl⟩, ⟨strip_strip _, htext⟩, fun r' hr' => ?_, fun r' hr' => ?_,
    List.ne_nil_of_length_pos (by rw [hlen]; exact hc.copySource_pos hsource)⟩
  · obtain ⟨r, hr, hcopy⟩ := forall₂_exists_left hcopies hr'
    exact (hcopy.readable (h.rows _ _ hlive r hr) htext himage (howned r' hr')).1.of_owner ⟨rfl, rfl⟩
  · obtain ⟨r, hr, hcopy⟩ := forall₂_getLast? hcopies hr'
    have hreadable := h.rows _ _ hlive r (List.mem_of_getLast? hr)
    rw [(hcopy.readable hreadable htext himage (howned r' (List.mem_of_getLast? hr'))).2]
    exact h.head _ _ hlive r hr

/-- A copied prefix fits its thread. -/
theorem fitting_copyThrough {source : String} {limit : Nat} (target : CopyTarget) {t : ThreadRow}
    {n : Nat} {ps : List PreparedCopy} {p : PreparedCopy} {new : List SnapshotRow} {headSeq : Option Nat}
    {headId : Option String} (h : C.Loadable db) (hc : Chained db)
    (htext : target.threadId ≠ "") (hstrip : strip target.threadId = target.threadId)
    (himage : isInlineImage target.threadId = false)
    (hsource : copySource db source = .ok (t, n))
    (hcopies : List.Forall₂ (C.PrefixCopyOf source t.runId target)
      ((db.boundaries source).filter fun r => r.seq ≤ limit) ps)
    (hrows : List.Forall₂ (PreparedCopy.Row target.threadId) ps new)
    (hlast : ps.getLast? = some p) (howned : ∀ r ∈ new, r.threadId = target.threadId) :
    C.Fitting db ⟨p.fields, target.threadId, none, none, none⟩
      ⟨p.fields, target.threadId, headSeq, headId, none⟩ new := by
  obtain ⟨hfind, htomb, -⟩ := copySource_eq_ok hsource
  have hlive := liveThread_eq_some_iff.mpr ⟨hfind, htomb⟩
  have hreadable : ∀ r ∈ (db.boundaries source).filter fun r => r.seq ≤ limit,
      C.Readable t r := fun r hr => h.rows _ _ hlive r (by
    rw [hc.boundaries_eq] at hr
    exact List.mem_of_mem_filter hr)
  -- the prefix keeps the source of the thread, and gets one chat
  obtain ⟨r₀, hr₀, hcopy₀⟩ := forall₂_exists_left hcopies (List.mem_of_getLast? hlast)
  have howner := hcopy₀.owner (hreadable r₀ hr₀) htext himage
  refine ⟨fun _ => ⟨rfl, rfl⟩, ⟨hstrip, htext⟩, fun r' hr' => ?_, fun r' hr' => ?_, ?_⟩
  · obtain ⟨q, hq, hrow⟩ := forall₂_exists_left hrows hr'
    obtain ⟨r, hr, hcopy⟩ := forall₂_exists_left hcopies hq
    exact (hcopy.readable _ hrow (hreadable r hr) htext himage (howned r' hr') howner).1
  · obtain ⟨q, hq, hrow⟩ := forall₂_getLast? hrows hr'
    obtain ⟨r, hr, hcopy⟩ := forall₂_getLast? hcopies hq
    rw [hlast, Option.some.injEq] at hq
    subst hq
    exact (hcopy.readable ⟨p.fields, target.threadId, none, none, none⟩ hrow
      (hreadable r (List.mem_of_getLast? hr)) htext himage (howned r' (List.mem_of_getLast? hr'))
      howner).2
  · rintro rfl
    cases hrows
    cases hlast

/-- A step that reads back keeps the store loadable. -/
theorem StoreStep.loadable {op : SnapshotOp} {r : SnapshotReply} (hstep : StoreStep C db op r db')
    (hcond : C.ReadsBack db op) (h : C.Loadable db) (hc : Chained db) : C.Loadable db' := by
  cases hstep with
  | raised => exact h
  | deletedBlank => exact h
  | copiedSelf => exact h
  | initialized => exact h.initialized
  | committed hp hid hfence hext =>
      exact h.extended hc hext (fitting_commit hcond hp hid hfence)
  | copied hne hsource _ hlen hcopies hext =>
      exact h.extended hc hext
        (fitting_copy h hc hne.1 hcond hsource hlen hext.owned hcopies)
  | @copiedThrough source target _ _ _ _ _ _ _ hne hsource _ _ hcopies hrows hlast hext =>
      exact h.extended hc hext (fitting_copyThrough
        ⟨strip target.threadId, strip target.runId, strip target.chatId⟩ h hc hne.1 (strip_strip _)
        hcond hsource hcopies hrows hlast hext.owned)
  | deleted _ hdel => exact h.deleted hc hdel

/-! ## 7.  Loading -/

/-- The cursor is loaded, with a state. -/
def SnapshotCodec.Loads (C : SnapshotCodec) (db : SnapshotDb) (cursor : SnapshotCursor)
    (state : Doc) : Prop :=
  ∃ stored, C.loadCursor db cursor = .ok (some stored) ∧ stored.cursor = cursor ∧
    stored.state = state

/-- What a cursor of a live thread loads. -/
theorem loadCursor_row (hc : Chained db) {k : String} {t : ThreadRow}
    (hlive : db.liveThread k = some t) (hname : strip k = k ∧ k ≠ "") {r : SnapshotRow}
    (hr : r ∈ db.rowsOf k) (hnamed : ∃ u, r.snapshotId = newSnapshotId u) :
    C.loadCursor db ⟨k, r.seq, r.snapshotId⟩ = (C.storedFromRow t r true).map some := by
  obtain ⟨hfind, htomb⟩ := liveThread_eq_some_iff.mp hlive
  obtain ⟨hmem, hthread⟩ := mem_rowsOf.mp hr
  obtain ⟨u, hu⟩ := hnamed
  have hid : strip r.snapshotId = r.snapshotId ∧ r.snapshotId ≠ "" := hu ▸ strip_newSnapshotId u
  have hseq : 1 ≤ r.seq := ((hc.live k t hfind htomb).2.2.2.bounds hr).1
  have hselect := hc.select hmem
  rw [hthread] at hselect
  unfold SnapshotCodec.loadCursor
  dsimp only
  rw [hname.1, hid.1, if_neg, hlive]
  · dsimp only
    rw [hselect, SnapshotCodec.loadRow]
  · rintro (hempty | hempty | hzero)
    · exact hname.2 hempty
    · exact hid.2 hempty
    · omega

theorem SnapshotCodec.Loadable.loads (h : C.Loadable db) (hc : Chained db) {k : String}
    {t : ThreadRow} (hlive : db.liveThread k = some t) {r : SnapshotRow} (hr : r ∈ db.rowsOf k) :
    C.Loads db ⟨k, r.seq, r.snapshotId⟩ r.stateBlob := by
  have hreadable := h.rows k t hlive r hr
  have htid : t.threadId = k := Table.key_of_find? (liveThread_eq_some_iff.mp hlive).1
  obtain ⟨stored, hstored, hcursor, hstate⟩ :=
    hreadable.storedFromRow ((mem_rowsOf.mp hr).2.trans htid.symm) hreadable.historical
  refine ⟨stored, ?_, by rw [hcursor, htid], hstate⟩
  rw [loadCursor_row hc hlive (h.named k t hlive) hr hreadable.named, hstored]
  rfl

/-- The newest boundary of a live thread is its head. -/
theorem SnapshotCodec.Loadable.loadHead (h : C.Loadable db) (hc : Chained db) {k : String}
    {t : ThreadRow} (hlive : db.liveThread k = some t) :
    ∃ r stored, (db.rowsOf k).getLast? = some r ∧ C.loadHead db k = .ok (some stored) ∧
      stored.cursor = ⟨k, r.seq, r.snapshotId⟩ ∧ stored.state = r.stateBlob := by
  obtain ⟨hfind, htomb⟩ := liveThread_eq_some_iff.mp hlive
  obtain ⟨hne, hheadSeq, hheadId, hlog⟩ := hc.live k t hfind htomb
  obtain ⟨r, hlast⟩ := Option.ne_none_iff_exists'.mp (mt List.getLast?_eq_none_iff.mp hne)
  have hr := List.mem_of_getLast? hlast
  have hreadable := h.rows k t hlive r hr
  have hthread := (mem_rowsOf.mp hr).2
  have htid : t.threadId = k := Table.key_of_find? hfind
  have hfields := h.head k t hlive r hlast
  -- the head of the thread names this boundary
  have hid : t.headSnapshotId = some r.snapshotId := by
    rw [hheadId, ← Linked.getLast?_map_ident hne, List.getLast?_map, hlast]
    rfl
  have hseq : t.headSeq = some r.seq := by
    have hseqs := congrArg List.getLast? hlog.seqs
    rw [List.getLast?_map, hlast, List.getLast?_range'] at hseqs
    have hpos : (db.rowsOf k).length ≠ 0 := fun hzero => hne (List.eq_nil_of_length_eq_zero hzero)
    rw [if_neg hpos, Option.map_some, Option.some.injEq] at hseqs
    rw [hheadSeq, hseqs]
    congr 1
    omega
  obtain ⟨stored, hstored, hcursor, hstate⟩ := hreadable.storedFromRow (hthread.trans htid.symm)
    (show indexMismatch (C.stateFields r.stateBlob) t r false = none by
      rw [hfields]
      simp [indexMismatch])
  refine ⟨r, stored, hlast, ?_, by rw [hcursor, htid], hstate⟩
  unfold SnapshotCodec.loadHead
  rw [hlive]
  dsimp only
  rw [hc.find?_row hr (by rw [hseq, hid]; exact decide_eq_true ⟨rfl, rfl⟩) fun x hx => ?_,
    SnapshotCodec.loadRow, hstored]
  · rfl
  · rw [hseq, hid] at hx
    exact Option.some.inj (of_decide_eq_true hx).1

/-- The state and the cursor of a commit that succeeded. -/
def committedState : SnapshotOp × SnapshotReply → Option (PyDict × SnapshotCursor)
  | (.commit state _ _ _ _, .committed cursor) => some (state, cursor)
  | _ => none

/-- The boundary of a commit is there, or its thread was deleted. -/
def SnapshotCodec.Keeps (C : SnapshotCodec) (db : SnapshotDb) (state : PyDict)
    (cursor : SnapshotCursor) : Prop :=
  ∃ t normalized, db.threads.find? cursor.threadId = some t ∧ C.scrubbed state = .ok normalized ∧
    (t.tombstonedAt = none → ∃ r ∈ db.rowsOf cursor.threadId,
      cursor = ⟨cursor.threadId, r.seq, r.snapshotId⟩ ∧ r.stateBlob = storedDoc normalized)

theorem Extended.keeps {owner after : ThreadRow} {new : List SnapshotRow}
    (hext : Extended db db' owner after new) {state : PyDict} {cursor : SnapshotCursor}
    (h : C.Keeps db state cursor) : C.Keeps db' state cursor := by
  obtain ⟨t, normalized, ht, hscrub, hrow⟩ := h
  have hrows := SnapshotDb.rowsOf_append hext.rows hext.owned cursor.threadId
  by_cases hkey : cursor.threadId = owner.threadId
  · refine ⟨after, normalized, by rw [hext.threads, if_pos hkey], hscrub, fun _ => ?_⟩
    rcases hext.opened with ⟨hnone, -⟩ | hfind
    · rw [hkey, hnone] at ht
      cases ht
    · rw [hkey, hfind, Option.some.injEq] at ht
      obtain ⟨r, hr, hcursor, hblob⟩ := hrow (ht ▸ hext.live.1)
      exact ⟨r, by rw [hrows]; exact List.mem_append_left _ hr, hcursor, hblob⟩
  · refine ⟨t, normalized, by rw [hext.threads, if_neg hkey, ht], hscrub, fun htomb => ?_⟩
    obtain ⟨r, hr, hcursor, hblob⟩ := hrow htomb
    exact ⟨r, by rw [hrows]; exact List.mem_append_left _ hr, hcursor, hblob⟩

theorem Deleted.keeps {k : String} {old : Option ThreadRow} {now : ℚ}
    (hdel : Deleted db db' k old now) (hc : Chained db) {state : PyDict} {cursor : SnapshotCursor}
    (h : C.Keeps db state cursor) : C.Keeps db' state cursor := by
  obtain ⟨t, normalized, ht, hscrub, hrow⟩ := h
  by_cases hkey : cursor.threadId = k
  · obtain ⟨t', ht', htomb'⟩ := hdel.tombstone
    refine ⟨t', normalized, by rw [hkey, ht'], hscrub, fun htomb => ?_⟩
    rw [htomb'] at htomb
    cases htomb
  · refine ⟨t, normalized, by rw [hdel.threads _ hkey, ht], hscrub, fun htomb => ?_⟩
    rw [hdel.rowsOf hc, if_neg hkey]
    exact hrow htomb

/-- One operation keeps the boundaries of the commits, and adds its own. -/
theorem StoreStep.keeps {op : SnapshotOp} {r : SnapshotReply} (hstep : StoreStep C db op r db')
    (hc : Chained db) {state : PyDict} {cursor : SnapshotCursor} :
    (C.Keeps db state cursor → C.Keeps db' state cursor) ∧
      (committedState (op, r) = some (state, cursor) → C.Keeps db' state cursor) := by
  cases hstep with
  | raised => exact ⟨id, by cases op <;> simp [committedState]⟩
  | deletedBlank => exact ⟨id, by simp [committedState]⟩
  | copiedSelf => exact ⟨id, by simp [committedState]⟩
  | initialized =>
      refine ⟨?_, by simp [committedState]⟩
      rintro ⟨t, normalized, ht, hscrub, hrow⟩
      unfold SnapshotDb.initIndex
      cases db.index <;> exact ⟨t, normalized, ht, hscrub, hrow⟩
  | @committed _ _ _ _ u p owner _ hp hid _ hext =>
      refine ⟨hext.keeps, fun hcommit => ?_⟩
      obtain ⟨rfl, rfl⟩ := Prod.mk.inj (Option.some.inj hcommit)
      obtain ⟨e, he, -, -, -, hblob, -⟩ := prepareBoundary_eq_ok hp
      obtain ⟨-, -, -, hdoc, -⟩ := encodeSnapshot_eq_ok he
      refine ⟨_, e.normalized, by rw [hext.threads, if_pos hid.symm], scrubbed_of_encoded he,
        fun _ => ⟨p.row (owner.count + 1) (newSnapshotId u) owner.headId, ?_, rfl, hblob.trans hdoc⟩⟩
      rw [SnapshotDb.rowsOf_append hext.rows hext.owned, if_pos hid.symm]
      exact List.mem_append_right _ List.mem_cons_self
  | copied _ _ _ _ _ hext => exact ⟨hext.keeps, by simp [committedState]⟩
  | copiedThrough _ _ _ _ _ _ _ hext => exact ⟨hext.keeps, by simp [committedState]⟩
  | deleted _ hdel => exact ⟨hdel.keeps hc, by simp [committedState]⟩

/-- **What was committed is loaded.**  In a run whose steps all read back, every boundary that
a commit returned is loaded by its cursor with the scrubbed state, unless its thread was
deleted; so is every boundary of a live thread, and its newest one as its head.  In every
run, scrubbing a scrubbed state removes nothing. -/
theorem committed_boundaries_load {h : List (SnapshotOp × SnapshotReply)} {s : SnapshotDb}
    (hrun : C.snapshotStore.RunWhere (fun _ s op => C.ReadsBack s op) h s) :
    (∀ e ∈ h, ∀ state cursor, committedState e = some (state, cursor) →
      ∃ normalized, C.scrubbed state = .ok normalized ∧
        (Tombstoned s cursor.threadId ∨ C.Loads s cursor (storedDoc normalized))) ∧
    (∀ k t, s.liveThread k = some t → ∀ r ∈ s.rowsOf k,
      C.Loads s ⟨k, r.seq, r.snapshotId⟩ r.stateBlob) ∧
    (∀ k t, s.liveThread k = some t →
      ∃ r stored, (s.rowsOf k).getLast? = some r ∧ C.loadHead s k = .ok (some stored) ∧
        stored.cursor = ⟨k, r.seq, r.snapshotId⟩ ∧ stored.state = r.stateBlob) ∧
    ∀ state normalized, C.scrubbed state = .ok normalized →
      C.scrubEntries (C.imageSource (entriesToPy normalized)) (entriesToPy normalized) "$" =
        .ok (normalized, 0) := by
  have hchained := chained_of_run hrun.run
  obtain ⟨hloadable, hkeeps⟩ := hrun.invariant
    (I := fun h s => C.Loadable s ∧
      ∀ e ∈ h, ∀ state cursor, committedState e = some (state, cursor) → C.Keeps s state cursor)
    ⟨⟨fun _ _ hk => (by cases hk), fun _ _ hk => (by cases hk), fun _ _ hk => (by cases hk)⟩,
      by simp⟩ (by
        rintro h s op r s' hrun ⟨hl, hk⟩ hcond hs
        have hc := chained_of_run hrun.run
        have hstep := stepStore_eq hs
        refine ⟨hstep.loadable hcond hl hc, fun e he state cursor hcommit => ?_⟩
        rcases List.mem_cons.mp he with rfl | he
        · exact (hstep.keeps hc).2 hcommit
        · exact (hstep.keeps hc).1 (hk e he state cursor hcommit))
  refine ⟨fun e he state cursor hcommit => ?_, fun k t hlive r hr => hloadable.loads hchained hlive hr,
    fun k t hlive => hloadable.loadHead hchained hlive, fun state normalized hscrub => ?_⟩
  · obtain ⟨t, normalized, ht, hscrub, hrow⟩ := hkeeps e he state cursor hcommit
    refine ⟨normalized, hscrub, ?_⟩
    by_cases htomb : t.tombstonedAt = none
    · obtain ⟨r, hr, hcursor, hblob⟩ := hrow htomb
      have hloads := hloadable.loads hchained (liveThread_eq_some_iff.mpr ⟨ht, htomb⟩) hr
      rw [← hcursor, hblob] at hloads
      exact .inr hloads
    · exact .inl ⟨t, ht, htomb⟩
  · obtain ⟨r, hr, rfl⟩ := except_map_eq_ok.mp hscrub
    exact (scrubEntries_scrubEntries hr "$").2

/-- The state of `chatState`, scrubbed. -/
def chatDoc (thread run chat : String) : Doc :=
  [("run_id", .str run), ("state_schema_version", .int 1), ("graph_revision", .str "chat.ipython.v2"),
    ("action_surface", .str actionSurface),
    ("provider_tool_schema_revision", .str ipythonSchemaRevision), ("source", .str "chat"),
    ("status", .str "running"), ("thread_id", .str thread), ("chat_id", .str chat)]

/-- A run after the first step of its thread. -/
def firstStep : SnapshotReply × SnapshotDb :=
  SnapshotCodec.plain.snapshotStore.step (modelStep "t" "r" "c" none 1) SnapshotDb.empty

/-- Another run of the chat takes the next step. -/
def nextStep : SnapshotReply × SnapshotDb :=
  SnapshotCodec.plain.snapshotStore.step (modelStep "t" "r2" "c" (some 1) 2) firstStep.2

theorem committed_boundaries_load_next :
    SnapshotCodec.plain.Loads nextStep.2 ⟨"t", 1, newSnapshotId 1⟩ (storedDoc (chatDoc "t" "r" "c")) ∧
      SnapshotCodec.plain.Loads nextStep.2 ⟨"t", 2, newSnapshotId 2⟩
        (storedDoc (chatDoc "t" "r2" "c")) := by
  obtain ⟨hfirst, hnext, hkept, hlive⟩ :
      firstStep.1 = .committed ⟨"t", 1, newSnapshotId 1⟩ ∧
      nextStep.1 = .committed ⟨"t", 2, newSnapshotId 2⟩ ∧
      ((firstStep.2.liveThread "t").all fun t => decide ("chat" = t.source ∧ "c" = t.chatId)) ∧
      (nextStep.2.liveThread "t").isSome := by
    decide +kernel
  have hscrubFirst : SnapshotCodec.plain.scrubbed (chatState "t" "r" "c") = .ok (chatDoc "t" "r" "c") :=
    rfl
  have hscrubNext :
      SnapshotCodec.plain.scrubbed (chatState "t" "r2" "c") = .ok (chatDoc "t" "r2" "c") := rfl
  have hrun : SnapshotCodec.plain.snapshotStore.RunWhere
      (fun _ s op => SnapshotCodec.plain.ReadsBack s op)
      [(modelStep "t" "r2" "c" (some 1) 2, nextStep.1), (modelStep "t" "r" "c" none 1, firstStep.1)]
      nextStep.2 := by
    refine .step (.step .start ?_ (Prod.mk.eta.symm : firstStep = _)) ?_
      (Prod.mk.eta.symm : nextStep = _)
    · intro normalized hscrub
      obtain rfl := Except.ok.inj (hscrubFirst.symm.trans hscrub)
      exact ⟨by decide +kernel, by decide +kernel, fun t ht => by cases ht⟩
    · intro normalized hscrub
      obtain rfl := Except.ok.inj (hscrubNext.symm.trans hscrub)
      refine ⟨by decide +kernel, by decide +kernel, fun t ht _ => ?_⟩
      have ht' : firstStep.2.liveThread "t" = some t := ht
      rw [ht', Option.all_some, decide_eq_true_iff] at hkept
      exact hkept
  have hall := (committed_boundaries_load hrun).1
  have hno : ¬ Tombstoned nextStep.2 "t" := by
    rintro ⟨t, ht, htomb⟩
    obtain ⟨t', ht'⟩ := Option.isSome_iff_exists.mp hlive
    obtain ⟨hfind, hnone⟩ := liveThread_eq_some_iff.mp ht'
    rw [ht, Option.some.injEq] at hfind
    exact htomb (hfind ▸ hnone)
  constructor
  · obtain ⟨normalized, hscrub, hloads⟩ := hall (modelStep "t" "r" "c" none 1, firstStep.1)
      (by simp) (chatState "t" "r" "c")
      ⟨"t", 1, newSnapshotId 1⟩ (by rw [hfirst]; rfl)
    obtain rfl := Except.ok.inj (hscrubFirst.symm.trans hscrub)
    exact hloads.resolve_left hno
  · obtain ⟨normalized, hscrub, hloads⟩ := hall (modelStep "t" "r2" "c" (some 1) 2, nextStep.1)
      (by simp) (chatState "t" "r2" "c")
      ⟨"t", 2, newSnapshotId 2⟩ (by rw [hnext]; rfl)
    obtain rfl := Except.ok.inj (hscrubNext.symm.trans hscrub)
    exact hloads.resolve_left hno

/-- Two boundaries of one thread, for two chats. -/
def chatChanged : List (SnapshotOp × SnapshotReply) × SnapshotDb :=
  SnapshotCodec.plain.snapshotStore.exec ([], SnapshotDb.empty)
    [modelStep "t" "r" "a" none 1, modelStep "t" "r" "b" (some 1) 2]

/-- The first of them is committed. -/
def firstChat : SnapshotReply × SnapshotDb :=
  SnapshotCodec.plain.stepStore (modelStep "t" "r" "a" none 1) SnapshotDb.empty

/-- And the second. -/
def secondChat : SnapshotReply × SnapshotDb :=
  SnapshotCodec.plain.stepStore (modelStep "t" "r" "b" (some 1) 2) firstChat.2

theorem chatChanged_db : chatChanged.2 = secondChat.2 := by
  have hexec : ∀ (M : Machine SnapshotDb SnapshotOp SnapshotReply) (db : SnapshotDb)
      (a b : SnapshotOp), (M.exec ([], db) [a, b]).2 = (M.step b (M.step a db).2).2 :=
    fun _ _ _ _ => rfl
  rw [chatChanged, hexec, show SnapshotCodec.plain.snapshotStore.step = SnapshotCodec.plain.stepStore
    from rfl, secondChat, firstChat]

/-- The text of the error of a load. -/
def loadError : Except SnapshotError (Option StoredRunSnapshot) → Option SnapshotError
  | .error e => some e
  | .ok _ => none

/-- A boundary that is readable for one chat does not load for a thread of another. -/
theorem loadError_of_chat {t t' : ThreadRow} {r : SnapshotRow} (h : C.Readable t' r)
    (hthread : r.threadId = t.threadId) (hsource : t'.source = t.source) (hchat : t'.chatId ≠ t.chatId) :
    loadError ((C.storedFromRow t r true).map some) =
      some (.unavailable s!"native snapshot chat_id index mismatch: {r.snapshotId}") := by
  have hindex : indexMismatch (C.stateFields r.stateBlob) t r true = some "chat_id" := by
    simp [indexMismatch, h.run, h.owner.1, h.owner.2, hsource, hchat]
  rw [h.storedFromRow_eq hthread]
  dsimp only
  rw [hindex]
  rfl

/-- A commit removes no boundary. -/
theorem StoreStep.rows_prefix {state : PyDict} {completedNode nextNode : String}
    {expected : Option Int} {u : BitVec 128} {r : SnapshotReply}
    (hstep : StoreStep C db (.commit state completedNode nextNode expected u) r db') :
    db.snapshots.rows <+: db'.snapshots.rows := by
  cases hstep with
  | raised => exact List.prefix_refl _
  | committed _ _ _ hext => exact hext.rows ▸ List.prefix_append _ _

/-- The first boundary of a thread that changed its chat does not load any more. -/
theorem older_boundary_unreadable :
    SnapshotCodec.plain.snapshotStore.Run chatChanged.1 chatChanged.2 ∧
    chatChanged.1.map Prod.snd =
      [.committed ⟨"t", 2, newSnapshotId 2⟩, .committed ⟨"t", 1, newSnapshotId 1⟩] ∧
    (chatChanged.2.liveThread "t").isSome ∧
    loadError (SnapshotCodec.plain.loadCursor chatChanged.2 ⟨"t", 1, newSnapshotId 1⟩) =
      some (.unavailable s!"native snapshot chat_id index mismatch: {newSnapshotId 1}") := by
  have hrun : SnapshotCodec.plain.snapshotStore.Run chatChanged.1 chatChanged.2 :=
    Machine.Run.exec .start _
  obtain ⟨hreplies, hfirst, hsecond, hrow⟩ : chatChanged.1.map Prod.snd =
        [.committed ⟨"t", 2, newSnapshotId 2⟩, .committed ⟨"t", 1, newSnapshotId 1⟩] ∧
      (firstChat.2.liveThread "t").map (fun t => (t.source, t.chatId)) = some ("chat", "a") ∧
      (chatChanged.2.liveThread "t").map (fun t => (t.source, t.chatId)) = some ("chat", "b") ∧
      (firstChat.2.rowsOf "t").head?.map (fun r => (r.seq, r.snapshotId)) = some (1, newSnapshotId 1) := by
    decide +kernel
  obtain ⟨t', hlive', hchat'⟩ := Option.map_eq_some_iff.mp hfirst
  obtain ⟨t, hlive, hchat⟩ := Option.map_eq_some_iff.mp hsecond
  obtain ⟨r, hhead, hcursor⟩ := Option.map_eq_some_iff.mp hrow
  obtain ⟨hseq, hid⟩ := Prod.mk.inj hcursor
  obtain ⟨hsource', hchat'⟩ := Prod.mk.inj hchat'
  obtain ⟨hsource, hchat⟩ := Prod.mk.inj hchat
  have hr := List.mem_of_head? hhead
  have hscrubFirst : SnapshotCodec.plain.scrubbed (chatState "t" "r" "a") = .ok (chatDoc "t" "r" "a") :=
    rfl
  -- the first boundary is readable when it is committed, and it is still there
  have hloadable : SnapshotCodec.plain.Loadable firstChat.2 :=
    (stepStore_eq (Prod.mk.eta.symm : firstChat = _)).loadable
      (fun normalized hscrub => by
        obtain rfl := Except.ok.inj (hscrubFirst.symm.trans hscrub)
        exact ⟨by decide +kernel, by decide +kernel, fun t ht => by cases ht⟩)
      ⟨fun _ _ hk => (by cases hk), fun _ _ hk => (by cases hk), fun _ _ hk => (by cases hk)⟩
      chained_empty
  have hreadable := hloadable.rows "t" t' hlive' r hr
  have hsecondStep : StoreStep SnapshotCodec.plain firstChat.2 (modelStep "t" "r" "b" (some 1) 2)
      secondChat.1 secondChat.2 := stepStore_eq (Prod.mk.eta.symm : secondChat = _)
  have hkept : r ∈ chatChanged.2.rowsOf "t" := by
    obtain ⟨hmem, hthread⟩ := mem_rowsOf.mp hr
    rw [chatChanged_db]
    exact mem_rowsOf.mpr ⟨hsecondStep.rows_prefix.subset hmem, hthread⟩
  refine ⟨hrun, hreplies, by rw [hlive]; rfl, ?_⟩
  have hload := loadCursor_row (C := SnapshotCodec.plain) (chained_of_run hrun) hlive
    (hloadable.named "t" t' hlive') hkept hreadable.named
  have hthread : r.threadId = t.threadId := (mem_rowsOf.mp hkept).2.trans
    (Table.key_of_find? (liveThread_eq_some_iff.mp hlive).1).symm
  rw [hseq, hid] at hload
  rw [hload, loadError_of_chat hreadable hthread (hsource'.trans hsource.symm)
    (by rw [hchat', hchat]; decide), hid]

end AgentEngine
end VariantOne
