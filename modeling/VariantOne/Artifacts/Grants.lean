import Mathlib.Data.List.Dedup
import VariantOne.Artifacts.Store

/-!
# Exact grants

What a scope can read is what was put or granted under it, and it reads as what was put.  The invariant
ties the rows of the catalogue and the files of the store to the puts and grants of the history.

`grants_exact` is the result, for orderly runs: a put comes with a scope that needs no stripping and with
bytes whose digest is that of no others, a grant has a time of its own, and nothing but the store writes to
its paths.  `Faithful` is its invariant, and every
operation keeps it (`Faithful.step`): a put adds a file under the digest of its bytes and a grant of its
scope, a grant adds a row, and a verification changes what is known of a file and nothing else.  Digests
have paths of their own (`StoreHost.path_injective`), so no put writes over the file of another.

What `stat`, `read` and the pages of a manifest answer follows from the invariant alone.
`blank_scope_unreadable` is why scopes must be stripped: a put keeps the blank, and readers look without
it.
-/

namespace VariantOne
namespace Artifacts

/-! ## 1.  Runs -/

inductive StoreStep where
  | putBytes (raw : Bytes) (mediaType kind scope : String) (now : ℚ)
  | putFile (source mediaType kind scope : String) (maxBytes : Option Int) (now : ℚ)
  | putText (value kind scope : String) (now : ℚ)
  | putJson (value : Json) (kind scope : String) (now : ℚ)
  | grant (ref : RefArg) (scope : String) (sourceScope : Option String) (verify : Bool) (mtime now : ℚ)
  | stat (ref : RefArg) (scope : Option String) (verify : Bool) (mtime now : ℚ)
  | exportTo (ref : RefArg) (destination : String) (scope : Option String) (overwrite verify : Bool)
      (mtime now : ℚ)
  /-- Somebody else writes a file. -/
  | place (path : String) (raw : Bytes)

inductive StoreReply where
  /-- A put, with the bytes that were put. -/
  | stored (raw : Bytes) (ref : ArtifactRef)
  | granted (ref : ArtifactRef)
  | found (metadata : ArtifactMetadata)
  | exported (receipt : ArtifactExport)
  | placed
  | raised (e : ArtifactError)
  deriving DecidableEq, Repr

namespace ArtifactStore

variable (H : StoreHost)

/-- A reply, or what was raised. -/
def replyOf {α : Type} (reply : α → StoreReply) : Except ArtifactError α → StoreReply
  | .ok a => reply a
  | .error e => .raised e

def step (l : StoreStep) (s : ArtifactStore) : StoreReply × ArtifactStore :=
  match l with
  | .putBytes raw mediaType kind scope now =>
      (.stored raw (putRef H raw mediaType kind scope), (s.putBytes H raw mediaType kind scope now).2)
  | .putFile source mediaType kind scope maxBytes now =>
      let (x, s') := s.putFile H source mediaType kind scope maxBytes now
      (replyOf (.stored ((s.file source).getD [])) x, s')
  | .putText value kind scope now =>
      (.stored (utf8 value) (putRef H (utf8 value) "text/plain; charset=utf-8" kind scope),
        (s.putText H value kind scope now).2)
  | .putJson value kind scope now =>
      (.stored (utf8 (String.ofList value.dumps))
          (putRef H (utf8 (String.ofList value.dumps)) "application/json" kind scope),
        (s.putJson H value kind scope now).2)
  | .grant ref scope sourceScope verify mtime now =>
      let (x, s') := s.grant H ref scope sourceScope verify mtime now
      (replyOf .granted x, s')
  | .stat ref scope verify mtime now =>
      let (x, s') := s.stat H ref scope verify mtime now
      (replyOf .found x, s')
  | .exportTo ref destination scope overwrite verify mtime now =>
      let (x, s') := s.exportTo H ref destination scope overwrite verify mtime now
      (replyOf .exported x, s')
  | .place path raw => (.placed, s.write path raw)

end ArtifactStore

/-- The runs of a store. -/
def artifacts (H : StoreHost) : Machine ArtifactStore StoreStep StoreReply :=
  ⟨ArtifactStore.empty, ArtifactStore.step H⟩

abbrev StoreHistory := List (StoreStep × StoreReply)

/-- The bytes a step has put, under their reference. -/
def putOf : StoreReply → Option (String × Bytes)
  | .stored raw ref => some (ref.ref, raw)
  | _ => none

/-- What was put. -/
def puts (h : StoreHistory) : List (String × Bytes) := h.filterMap fun e => putOf e.2

/-- The scope, as readers strip it, that a reference is granted to. -/
def grantTo (ref : ArtifactRef) : Option (String × String) :=
  if strip ref.scope = "" then none else some (strip ref.scope, ref.ref)

/-- The grant a step has made. -/
def grantOf : StoreReply → Option (String × String)
  | .stored _ ref | .granted ref => grantTo ref
  | _ => none

/-- The grants that were made. -/
def grantsIn (h : StoreHistory) : List (String × String) := h.filterMap fun e => grantOf e.2

theorem grantsIn_cons (e : StoreStep × StoreReply) (h : StoreHistory) :
    grantsIn (e :: h) = (grantOf e.2).toList ++ grantsIn h := by
  unfold grantsIn
  rw [List.filterMap_cons]
  cases grantOf e.2 <;> rfl

theorem puts_cons_of_none {e : StoreStep × StoreReply} (he : putOf e.2 = none) (h : StoreHistory) :
    puts (e :: h) = puts h := by
  unfold puts
  rw [List.filterMap_cons, he]

/-! ## 2.  Orderly runs -/

/-- A path that is none of the store's own files. -/
def StoreHost.Outside (H : StoreHost) (path : String) : Prop :=
  path ≠ H.grantPath ∧ ∀ digest, IsDigest digest → path ≠ H.path digest

/-- A grant is made at a time of its own. -/
def FreshTime (s : ArtifactStore) (scope ref : String) (now : ℚ) : Prop :=
  ∀ g ∈ s.semantic.rows, g.scope = scope → g.ref = ref → g.createdAt ≠ now

/-- A put under a scope without blanks around it, at a time of its own, of bytes that do not collide
with those of another put. -/
structure OrderlyPut (H : StoreHost) (h : StoreHistory) (s : ArtifactStore) (raw : Bytes)
    (scope : String) (now : ℚ) : Prop where
  clean : strip scope = scope
  fresh : FreshTime s scope (refOf (H.digest.hexdigest raw)) now
  distinct : ∀ raw', (refOf (H.digest.hexdigest raw), raw') ∈ puts h → raw' = raw

/-- Puts are orderly, grants have times of their own, and nobody writes over the files of the store. -/
def Orderly (H : StoreHost) (h : StoreHistory) (s : ArtifactStore) : StoreStep → Prop
  | .putBytes raw _ _ scope now => OrderlyPut H h s raw scope now
  | .putFile source _ _ scope _ now => ∀ raw, s.file source = some raw → OrderlyPut H h s raw scope now
  | .putText value _ scope now => OrderlyPut H h s (utf8 value) scope now
  | .putJson value _ scope now => OrderlyPut H h s (utf8 (String.ofList value.dumps)) scope now
  | .grant ref scope _ _ _ now => FreshTime s (strip scope) ref.ref now
  | .stat _ _ _ _ _ => True
  | .exportTo _ destination _ _ _ _ _ => H.Outside destination
  | .place path _ => H.Outside path

/-- **The store is faithful to what was put and to what was granted.** -/
structure Faithful (H : StoreHost) (put : List (String × Bytes)) (granted : List (String × String))
    (s : ArtifactStore) : Prop where
  /-- The grants are those that were made. -/
  exact : ∀ scope ref, (∃ g ∈ s.semantic.rows, g.scope = scope ∧ g.ref = ref) ↔ (scope, ref) ∈ granted
  clean : ∀ g ∈ s.semantic.rows, strip g.scope = g.scope ∧ g.scope ≠ ""
  typed : ∀ g ∈ s.semantic.rows, g.mediaType ≠ "" ∧ g.kind ≠ ""
  /-- A grant is of bytes that were put. -/
  grants : ∀ g ∈ s.semantic.rows, ∃ raw, (g.ref, raw) ∈ put ∧ g.sha256 = H.digest.hexdigest raw ∧
    g.bytes = raw.length
  objects : ∀ o ∈ s.objects.rows, (∃ raw, (o.ref, raw) ∈ put ∧ o.sha256 = H.digest.hexdigest raw ∧
    o.bytes = raw.length) ∧ o.mediaType ≠ "" ∧ o.kind ≠ ""
  refs : ∀ ref raw, (ref, raw) ∈ put → ref = refOf (H.digest.hexdigest raw)
  /-- The files are what was put. -/
  files : ∀ digest raw, IsDigest digest →
    (s.file (H.path digest) = some raw ↔ (refOf digest, raw) ∈ put)

/-- Grants of one artifact in one scope are told apart by their times. -/
def Timed (s : ArtifactStore) : Prop :=
  ∀ g ∈ s.semantic.rows, ∀ g' ∈ s.semantic.rows, g.scope = g'.scope → g.ref = g'.ref →
    g.createdAt = g'.createdAt → g = g'

/-! ## 3.  References and paths -/

theorem refParts_refOf {digest : String} (h : IsDigest digest) : refParts (refOf digest) = .ok digest := by
  have hdrop : String.ofList ((refOf digest).toList.drop refScheme.length) = digest := by
    rw [refOf, String.toList_append, List.drop_left' String.length_toList, String.ofList_toList]
  unfold refParts
  dsimp only
  rw [hdrop, if_pos ⟨rfl, h⟩]

theorem refParts_eq_ok {ref digest : String} (h : refParts ref = .ok digest) :
    ref = refOf digest ∧ IsDigest digest := by
  unfold refParts at h
  dsimp only at h
  split at h
  · rename_i hcond
    obtain rfl := Except.ok.inj h
    exact hcond
  · cases h

theorem refOf_injective {digest digest' : String} (h : refOf digest = refOf digest') :
    digest = digest' := by
  have hlist := congrArg String.toList h
  rw [refOf, refOf, String.toList_append, String.toList_append] at hlist
  exact String.toList_inj.mp (List.append_cancel_left hlist)

/-- **Digests have files of their own.** -/
theorem StoreHost.path_injective (H : StoreHost) {digest digest' : String} (h : IsDigest digest)
    (h' : IsDigest digest') (heq : H.path digest = H.path digest') : digest = digest' := by
  have hlist := congrArg String.toList heq
  simp only [StoreHost.path, String.toList_append] at hlist
  have hlen : digest.toList.length = digest'.toList.length := by
    rw [String.length_toList, String.length_toList, h.1, h'.1]
  exact String.toList_inj.mp (List.append_inj_right' hlist hlen)

/-- A reference has no blanks around it. -/
theorem strip_refOf {digest : String} (h : IsDigest digest) : strip (refOf digest) = refOf digest := by
  refine strip_of_forall fun c hc => ?_
  rw [refOf, String.toList_append, List.mem_append] at hc
  rcases hc with hc | hc
  · have hblank : refScheme.toList.any isSpace = false := by decide
    exact Bool.eq_false_iff.mpr fun hspace =>
      Bool.eq_false_iff.mp hblank (List.any_eq_true.mpr ⟨c, hc, hspace⟩)
  · have hhex := h.2 c hc
    unfold isHexDigit at hhex
    have hrange : (48 ≤ c.toNat ∧ c.toNat ≤ 57) ∨ (97 ≤ c.toNat ∧ c.toNat ≤ 102) := by
      simp only [Bool.or_eq_true, Bool.and_eq_true, decide_eq_true_eq, Char.le_def,
        UInt32.le_iff_toNat_le] at hhex
      exact hhex
    unfold isSpace
    simp only [Bool.or_eq_false_iff, Bool.and_eq_false_iff, decide_eq_false_iff_not,
      beq_eq_false_iff_ne]
    omega

/-! ## 4.  What a step writes -/

namespace ArtifactStore

theorem file_write_self (s : ArtifactStore) (path : String) (raw : Bytes) :
    (s.write path raw).file path = some raw := Dict.get?_set_self s.files path raw

theorem file_write_of_ne (s : ArtifactStore) {path path' : String} (h : path' ≠ path) (raw : Bytes) :
    (s.write path raw).file path' = s.file path' := Dict.get?_set_of_ne (Ne.symm h) raw

@[simp] theorem file_recordGrant (s : ArtifactStore) (ref : ArtifactRef) (now : ℚ) (path : String) :
    (s.recordGrant ref now).file path = s.file path := by
  unfold recordGrant
  dsimp only
  split <;> rfl

end ArtifactStore

theorem mem_insertOrIgnore {ρ κ : Type} {key : ρ → κ} [DecidableEq κ] {t : Table ρ κ key} {r r' : ρ}
    (h : r' ∈ (insertOrIgnore t r).rows) : r' ∈ t.rows ∨ r' = r := by
  unfold insertOrIgnore at h
  cases hins : t.insert? r with
  | none =>
      rw [hins] at h
      exact .inl h
  | some u =>
      rw [hins, Option.getD_some, (Table.insert?_eq_some hins).2, List.mem_append,
        List.mem_singleton] at h
      exact h

/-- What was in a table stays in it. -/
theorem mem_insertOrIgnore_of_mem {ρ κ : Type} {key : ρ → κ} [DecidableEq κ] {t : Table ρ κ key}
    {r r' : ρ} (h : r' ∈ t.rows) : r' ∈ (insertOrIgnore t r).rows := by
  unfold insertOrIgnore
  cases hins : t.insert? r with
  | none => exact h
  | some u =>
      rw [Option.getD_some, (Table.insert?_eq_some hins).2]
      exact List.mem_append_left _ h

/-- After an insertion the key is taken. -/
theorem exists_mem_insertOrIgnore {ρ κ : Type} {key : ρ → κ} [DecidableEq κ] (t : Table ρ κ key)
    (r : ρ) : ∃ r' ∈ (insertOrIgnore t r).rows, key r' = key r := by
  unfold insertOrIgnore
  cases hins : t.insert? r with
  | none =>
      have htaken : t.find? (key r) ≠ none := fun hfree => by
        obtain ⟨u, hu⟩ := Table.exists_insert? hfree
        rw [hu] at hins
        cases hins
      obtain ⟨r', hr'⟩ := Option.ne_none_iff_exists'.mp htaken
      exact ⟨r', Table.mem_of_find? hr', Table.key_of_find? hr'⟩
  | some u =>
      refine ⟨r, ?_, rfl⟩
      rw [Option.getD_some, (Table.insert?_eq_some hins).2]
      exact List.mem_append_right _ (List.mem_singleton_self r)

/-! ## 5.  The store stays faithful -/

section Faithful

variable {H : StoreHost} {put : List (String × Bytes)} {granted : List (String × String)}
  {s : ArtifactStore}

theorem faithful_empty (H : StoreHost) : Faithful H [] [] ArtifactStore.empty where
  exact := by simp [ArtifactStore.empty]
  clean := by simp [ArtifactStore.empty]
  typed := by simp [ArtifactStore.empty]
  grants := by simp [ArtifactStore.empty]
  objects := by simp [ArtifactStore.empty]
  refs := by simp
  files := by simp [ArtifactStore.empty, ArtifactStore.file]

/-- Writing outside of the store changes no artifact. -/
theorem Faithful.write (hs : Faithful H put granted s) {path : String} (hpath : H.Outside path)
    (raw : Bytes) : Faithful H put granted (s.write path raw) where
  exact := hs.exact
  clean := hs.clean
  typed := hs.typed
  grants := hs.grants
  objects := hs.objects
  refs := hs.refs
  files := fun digest raw' hdigest => by
    rw [ArtifactStore.file_write_of_ne s (Ne.symm (hpath.2 digest hdigest)) raw]
    exact hs.files digest raw' hdigest

/-- The files may come to hold what is put next to what was put. -/
theorem Faithful.more (hs : Faithful H put granted s) {raw : Bytes} {s' : ArtifactStore}
    (hsemantic : s'.semantic = s.semantic) (hobjects : s'.objects = s.objects)
    (hfiles : ∀ digest raw', IsDigest digest → (s'.file (H.path digest) = some raw' ↔
      (refOf digest, raw') ∈ (refOf (H.digest.hexdigest raw), raw) :: put)) :
    Faithful H ((refOf (H.digest.hexdigest raw), raw) :: put) granted s' := by
  refine ⟨?_, ?_, ?_, ?_, ?_, ?_, hfiles⟩
  · rw [hsemantic]
    exact hs.exact
  · rw [hsemantic]
    exact hs.clean
  · rw [hsemantic]
    exact hs.typed
  · rw [hsemantic]
    intro g hg
    obtain ⟨raw', hput, hrest⟩ := hs.grants g hg
    exact ⟨raw', List.mem_cons_of_mem _ hput, hrest⟩
  · rw [hobjects]
    intro o ho
    obtain ⟨⟨raw', hput, hrest⟩, htyped⟩ := hs.objects o ho
    exact ⟨⟨raw', List.mem_cons_of_mem _ hput, hrest⟩, htyped⟩
  · intro ref raw' hmem
    rcases List.mem_cons.mp hmem with heq | hmem
    · obtain ⟨rfl, rfl⟩ := Prod.mk.inj heq
      rfl
    · exact hs.refs ref raw' hmem

/-- A put keeps the bytes. -/
theorem Faithful.keep (hs : Faithful H put granted s) {raw : Bytes}
    (hdistinct : ∀ raw', (refOf (H.digest.hexdigest raw), raw') ∈ put → raw' = raw) :
    Faithful H ((refOf (H.digest.hexdigest raw), raw) :: put) granted
      (if s.validFile H (H.digest.hexdigest raw) raw.length then s
        else s.write (H.path (H.digest.hexdigest raw)) raw) := by
  have hdigest := H.digest.isDigest raw
  have hfile := fun raw' => hs.files (H.digest.hexdigest raw) raw' hdigest
  cases hold : s.file (H.path (H.digest.hexdigest raw)) with
  | some raw' =>
      have hmem := (hfile raw').mp hold
      obtain rfl := hdistinct raw' hmem
      have hvalid : s.validFile H (H.digest.hexdigest raw') raw'.length = true := by
        simp [ArtifactStore.validFile, hold]
      rw [if_pos hvalid]
      refine hs.more rfl rfl fun digest raw'' hdigest' => ?_
      rw [hs.files digest raw'' hdigest', List.mem_cons]
      exact ⟨.inr, fun hor => hor.elim (fun heq => heq ▸ hmem) id⟩
  | none =>
      have hvalid : ¬ s.validFile H (H.digest.hexdigest raw) raw.length = true := by
        simp [ArtifactStore.validFile, hold]
      rw [if_neg hvalid]
      refine hs.more rfl rfl fun digest raw' hdigest' => ?_
      rw [List.mem_cons]
      by_cases heq : digest = H.digest.hexdigest raw
      · subst heq
        have hno : (refOf (H.digest.hexdigest raw), raw') ∉ put := fun hmem => by
          rw [(hfile raw').mpr hmem] at hold
          cases hold
        rw [ArtifactStore.file_write_self]
        simp [hno, eq_comm]
      · have hpath : H.path digest ≠ H.path (H.digest.hexdigest raw) := fun hpath =>
          heq (H.path_injective hdigest' hdigest hpath)
        rw [ArtifactStore.file_write_of_ne s hpath raw, hs.files digest raw' hdigest']
        refine ⟨.inr, fun hor => hor.resolve_left fun hpair => heq ?_⟩
        exact refOf_injective (Prod.mk.inj hpair).1

/-- What `recordGrant` needs of a reference: its bytes were put, and it says what it is. -/
structure Recordable (H : StoreHost) (put : List (String × Bytes)) (ref : ArtifactRef) : Prop where
  bytes : ∃ raw, (ref.ref, raw) ∈ put ∧ ref.sha256 = H.digest.hexdigest raw ∧ ref.bytes = raw.length
  typed : ref.mediaType ≠ "" ∧ ref.kind ≠ ""
  clean : strip ref.scope = ref.scope

/-- The row of a reference. -/
def rowOf (ref : ArtifactRef) (now : ℚ) : ArtifactGrant :=
  ⟨ref.scope, ref.ref, ref.sha256, ref.bytes, ref.mediaType, ref.kind, now⟩

/-- The grants after a recording. -/
theorem semantic_recordGrant (s : ArtifactStore) (ref : ArtifactRef) (now : ℚ) :
    (s.recordGrant ref now).semantic =
      if ref.scope = "" then s.semantic else insertOrIgnore s.semantic (rowOf ref now) := by
  unfold ArtifactStore.recordGrant
  dsimp only
  split <;> rfl

/-- The objects after a recording. -/
theorem objects_recordGrant (s : ArtifactStore) (ref : ArtifactRef) (now : ℚ) :
    (s.recordGrant ref now).objects = insertOrIgnore s.objects
      ⟨ref.ref, ref.sha256, ref.bytes, ref.mediaType, ref.kind, now⟩ := by
  unfold ArtifactStore.recordGrant
  dsimp only
  split <;> rfl

theorem mem_semantic_recordGrant {ref : ArtifactRef} {now : ℚ} {g : ArtifactGrant}
    (h : g ∈ (s.recordGrant ref now).semantic.rows) :
    g ∈ s.semantic.rows ∨ (ref.scope ≠ "" ∧ g = rowOf ref now) := by
  rw [semantic_recordGrant] at h
  split at h
  · exact .inl h
  · rename_i hscope
    exact (mem_insertOrIgnore h).imp_right fun heq => ⟨hscope, heq⟩

/-- **A recording keeps the store faithful**, and adds its grant. -/
theorem Faithful.recordGrant (hs : Faithful H put granted s) {ref : ArtifactRef} {now : ℚ}
    (hrec : Recordable H put ref) : Faithful H put ((grantTo ref).toList ++ granted) (s.recordGrant ref now) where
  exact := fun scope ref' => by
    rw [List.mem_append, Option.mem_toList, ← hs.exact, grantTo, hrec.clean]
    constructor
    · rintro ⟨g, hg, rfl, rfl⟩
      rcases mem_semantic_recordGrant hg with hg | ⟨hscope, rfl⟩
      · exact .inr ⟨g, hg, rfl, rfl⟩
      · left
        rw [if_neg hscope]
        rfl
    · rw [semantic_recordGrant]
      rintro (hnew | ⟨g, hg, hkey⟩)
      · split at hnew
        · cases hnew
        · rename_i hscope
          obtain ⟨rfl, rfl⟩ := Prod.mk.inj (Option.mem_some.mp hnew)
          rw [if_neg hscope]
          obtain ⟨g, hg, hkey⟩ := exists_mem_insertOrIgnore s.semantic (rowOf ref now)
          exact ⟨g, hg, congrArg Prod.fst hkey, congrArg (fun k => k.2.1) hkey⟩
      · refine ⟨g, ?_, hkey⟩
        split
        · exact hg
        · exact mem_insertOrIgnore_of_mem hg
  clean := fun g hg => by
    rcases mem_semantic_recordGrant hg with hg | ⟨hscope, rfl⟩
    · exact hs.clean g hg
    · exact ⟨hrec.clean, hscope⟩
  typed := fun g hg => by
    rcases mem_semantic_recordGrant hg with hg | ⟨_, rfl⟩
    · exact hs.typed g hg
    · exact hrec.typed
  grants := fun g hg => by
    rcases mem_semantic_recordGrant hg with hg | ⟨_, rfl⟩
    · exact hs.grants g hg
    · exact hrec.bytes
  objects := fun o ho => by
    rw [objects_recordGrant] at ho
    rcases mem_insertOrIgnore ho with ho | rfl
    · exact hs.objects o ho
    · exact ⟨hrec.bytes, hrec.typed⟩
  refs := hs.refs
  files := fun digest raw hdigest => by
    rw [ArtifactStore.file_recordGrant]
    exact hs.files digest raw hdigest

/-- A recording at a time of its own. -/
theorem Timed.recordGrant (hs : Timed s) {ref : ArtifactRef} {now : ℚ}
    (hfresh : FreshTime s ref.scope ref.ref now) : Timed (s.recordGrant ref now) := by
  intro g hg g' hg' hscope href htime
  rcases mem_semantic_recordGrant hg with hg | ⟨_, rfl⟩
  · rcases mem_semantic_recordGrant hg' with hg' | ⟨_, rfl⟩
    · exact hs g hg g' hg' hscope href htime
    · exact absurd htime (hfresh g hg hscope href)
  · rcases mem_semantic_recordGrant hg' with hg' | ⟨_, rfl⟩
    · exact absurd htime.symm (hfresh g' hg' hscope.symm href.symm)
    · rfl

theorem orDefault_ne {value default : String} (h : default ≠ "") :
    ArtifactStore.orDefault value default ≠ "" := by
  unfold ArtifactStore.orDefault
  split
  · exact h
  · assumption

/-- **A put keeps the store faithful.** -/
theorem Faithful.putBytes (hs : Faithful H put granted s) {raw : Bytes} {scope : String}
    (mediaType kind : String) (now : ℚ) (hclean : strip scope = scope)
    (hdistinct : ∀ raw', (refOf (H.digest.hexdigest raw), raw') ∈ put → raw' = raw) :
    Faithful H ((refOf (H.digest.hexdigest raw), raw) :: put)
      ((grantTo (ArtifactStore.putRef H raw mediaType kind scope)).toList ++ granted)
      (s.putBytes H raw mediaType kind scope now).2 := by
  refine (hs.keep hdistinct).recordGrant ⟨⟨raw, List.mem_cons_self, rfl, rfl⟩, ⟨?_, ?_⟩, hclean⟩
  · exact orDefault_ne (by decide)
  · exact orDefault_ne (by decide)

theorem Timed.of_semantic {s' : ArtifactStore} (hs : Timed s) (h : s'.semantic = s.semantic) :
    Timed s' := by
  unfold Timed
  rw [h]
  exact hs

/-- A put at a time of its own. -/
theorem Timed.putBytes (hs : Timed s) {raw : Bytes} {scope : String} {now : ℚ} (mediaType kind : String)
    (hfresh : FreshTime s scope (refOf (H.digest.hexdigest raw)) now) :
    Timed (s.putBytes H raw mediaType kind scope now).2 := by
  have hsame : (if s.validFile H (H.digest.hexdigest raw) raw.length then s
      else s.write (H.path (H.digest.hexdigest raw)) raw).semantic = s.semantic := by
    split <;> rfl
  refine (hs.of_semantic hsame).recordGrant fun g hg => hfresh g ?_
  rw [hsame] at hg
  exact hg

/-- What a grant or an object tells of its bytes. -/
def Known (H : StoreHost) (put : List (String × Bytes)) (m : ArtifactMetadata) : Prop :=
  (∃ raw, (m.ref, raw) ∈ put ∧ m.sha256 = H.digest.hexdigest raw ∧ m.bytes = raw.length) ∧
    m.mediaType ≠ "" ∧ m.kind ≠ ""

theorem checkFile_eq_ok {m m' : ArtifactMetadata} {digest : String} {verify : Bool}
    (h : s.checkFile H m digest verify = .ok m') : m' = m := by
  unfold ArtifactStore.checkFile at h
  split at h
  · cases h
  · split at h
    · cases h
    · split at h
      · cases h
      · exact (Except.ok.inj h).symm

/-- The grants `stat` and `manifest` choose from. -/
theorem mem_grantsOf {scope ref : String} {g : ArtifactGrant} :
    g ∈ s.grantsOf scope ref ↔ g ∈ s.semantic.rows ∧ g.scope = scope ∧ g.ref = ref := by
  simp [ArtifactStore.grantsOf, List.mem_insertionSort]

theorem statGrant_mem {scope : String} {ref : RefArg} {g : ArtifactGrant}
    (h : s.statGrant scope ref = some g) : g ∈ s.semantic.rows ∧ g.scope = scope ∧ g.ref = ref.ref :=
  mem_grantsOf.mp (List.argmax_mem (Option.mem_def.mpr h))

/-- What `stat` answers a scope is one of its grants. -/
theorem statScoped_eq_ok {ref : RefArg} {scope : String} {verify : Bool} {m : ArtifactMetadata}
    (h : s.statScoped H ref scope verify = .ok m) :
    strip scope ≠ "" ∧ ∃ g, s.statGrant (strip scope) ref = some g ∧ m = ArtifactStore.grantMetadata g := by
  unfold ArtifactStore.statScoped at h
  cases hparts : refParts ref.ref with
  | error e =>
      rw [hparts] at h
      cases h
  | ok digest =>
      rw [hparts] at h
      unfold cleanScope at h
      by_cases hscope : strip scope = ""
      · rw [if_pos hscope] at h
        cases h
      · rw [if_neg hscope] at h
        cases hgrant : s.statGrant (strip scope) ref with
        | none =>
            simp only [bind, Except.bind, hgrant] at h
            cases h
        | some g =>
            simp only [bind, Except.bind, hgrant] at h
            exact ⟨hscope, g, rfl, checkFile_eq_ok h⟩

theorem Faithful.known_grant (hs : Faithful H put granted s) {g : ArtifactGrant}
    (hg : g ∈ s.semantic.rows) : Known H put (ArtifactStore.grantMetadata g) :=
  ⟨hs.grants g hg, hs.typed g hg⟩

theorem strip_nil : strip "" = "" := by decide

theorem default_ne : ArtifactStore.defaultMediaType ≠ "" ∧ ArtifactStore.defaultKind ≠ "" := by decide

/-- The host is answered what is known, and registering a file keeps the store faithful. -/
theorem Faithful.statHost (hs : Faithful H put granted s) (ref : RefArg) (verify : Bool)
    (mtime now : ℚ) :
    Faithful H put granted (s.statHost H ref verify mtime now).2 ∧
      (s.statHost H ref verify mtime now).2.semantic = s.semantic ∧
      ∀ m, (s.statHost H ref verify mtime now).1 = .ok m → Known H put m ∧ m.ref = ref.ref := by
  unfold ArtifactStore.statHost
  cases hparts : refParts ref.ref with
  | error e => exact ⟨hs, rfl, fun m hm => nomatch hm⟩
  | ok digest =>
      dsimp only
      cases hobject : s.objects.find? ref.ref with
      | some o =>
          refine ⟨hs, rfl, fun m hm => ?_⟩
          obtain rfl := checkFile_eq_ok hm
          have href : o.ref = ref.ref := Table.key_of_find? hobject
          exact ⟨hs.objects o (Table.mem_of_find? hobject), href⟩
      | none =>
          dsimp only
          cases hfile : s.file (H.path digest) with
          | none => exact ⟨hs, rfl, fun m hm => nomatch hm⟩
          | some raw =>
              -- A file of the store is of a put: registering it changes no grant.
              obtain ⟨href, hdigest⟩ := refParts_eq_ok hparts
              have hput := (hs.files digest raw hdigest).mp hfile
              have hsha : digest = H.digest.hexdigest raw := refOf_injective (hs.refs _ _ hput)
              have hbytes : ∃ raw', (ref.ref, raw') ∈ put ∧ digest = H.digest.hexdigest raw' ∧
                  raw.length = raw'.length := ⟨raw, by rw [href]; exact hput, hsha, rfl⟩
              have hrec : Recordable H put ⟨ref.ref, digest, raw.length,
                  ArtifactStore.defaultMediaType, ArtifactStore.defaultKind, ""⟩ :=
                ⟨hbytes, default_ne, strip_nil⟩
              refine ⟨hs.recordGrant hrec, ?_, ?_⟩
              · rw [semantic_recordGrant, if_pos rfl]
              · intro m hm
                obtain rfl := checkFile_eq_ok hm
                exact ⟨⟨hbytes, default_ne⟩, rfl⟩

/-- **`stat` answers what it knows**, and keeps the store faithful. -/
theorem Faithful.stat (hs : Faithful H put granted s) (ref : RefArg) (scope : Option String)
    (verify : Bool) (mtime now : ℚ) :
    Faithful H put granted (s.stat H ref scope verify mtime now).2 ∧
      (s.stat H ref scope verify mtime now).2.semantic = s.semantic ∧
      ∀ m, (s.stat H ref scope verify mtime now).1 = .ok m → Known H put m ∧ m.ref = ref.ref := by
  cases scope with
  | none => exact hs.statHost ref verify mtime now
  | some scope =>
      refine ⟨hs, rfl, fun m hm => ?_⟩
      obtain ⟨_, g, hg, rfl⟩ := statScoped_eq_ok hm
      obtain ⟨hmem, _, href⟩ := statGrant_mem hg
      exact ⟨hs.known_grant hmem, href⟩

/-- **A grant keeps the store faithful.** -/
theorem Faithful.grant (hs : Faithful H put granted s) {ref : RefArg} {scope : String} {now : ℚ}
    (sourceScope : Option String) (verify : Bool) (mtime : ℚ) :
    (∃ e s', s.grant H ref scope sourceScope verify mtime now = (.error e, s') ∧
      Faithful H put granted s') ∨
    ∃ given s', s.grant H ref scope sourceScope verify mtime now = (.ok given, s') ∧
      Faithful H put ((grantTo given).toList ++ granted) s' := by
  unfold ArtifactStore.grant cleanScope
  by_cases hscope : strip scope = ""
  · rw [if_pos hscope]
    exact .inl ⟨_, _, rfl, hs⟩
  · rw [if_neg hscope]
    obtain ⟨hafter, _, hknown⟩ := hs.stat ref sourceScope verify mtime now
    dsimp only
    cases hstat : s.stat H ref sourceScope verify mtime now with
    | mk answer s₁ =>
        rw [hstat] at hafter hknown
        cases answer with
        | error e => exact .inl ⟨_, _, rfl, hafter⟩
        | ok m =>
            obtain ⟨⟨hbytes, htyped⟩, _⟩ := hknown m rfl
            exact .inr ⟨_, _, rfl, hafter.recordGrant ⟨hbytes, htyped, strip_strip scope⟩⟩

/-- A grant at a time of its own. -/
theorem Faithful.timed_grant (hs : Faithful H put granted s) (ht : Timed s) {ref : RefArg}
    {scope : String} {now : ℚ} (sourceScope : Option String) (verify : Bool) (mtime : ℚ)
    (hfresh : FreshTime s (strip scope) ref.ref now) :
    Timed (s.grant H ref scope sourceScope verify mtime now).2 := by
  unfold ArtifactStore.grant cleanScope
  by_cases hscope : strip scope = ""
  · rw [if_pos hscope]
    exact ht
  · rw [if_neg hscope]
    obtain ⟨_, hsemantic, hknown⟩ := hs.stat ref sourceScope verify mtime now
    dsimp only
    cases hstat : s.stat H ref sourceScope verify mtime now with
    | mk answer s₁ =>
        rw [hstat] at hsemantic hknown
        cases answer with
        | error e => exact ht.of_semantic hsemantic
        | ok m =>
            refine (ht.of_semantic hsemantic).recordGrant fun g hg hgscope hgref => ?_
            rw [hsemantic] at hg
            exact hfresh g hg hgscope (hgref.trans (hknown m rfl).2)

/-- An export outside of the store keeps it faithful. -/
theorem Faithful.exportTo (hs : Faithful H put granted s) {destination : String} (ref : RefArg)
    (scope : Option String) (overwrite verify : Bool) (mtime now : ℚ) (hout : H.Outside destination) :
    Faithful H put granted (s.exportTo H ref destination scope overwrite verify mtime now).2 := by
  have hafter := (hs.stat ref scope false mtime now).1
  unfold ArtifactStore.exportTo
  cases hstat : s.stat H ref scope false mtime now with
  | mk answer s₁ =>
      rw [hstat] at hafter
      cases answer with
      | error e => exact hafter
      | ok m =>
          dsimp only
          repeat' split
          all_goals first
            | exact hafter
            | exact hafter.write hout _

/-- An export grants nothing. -/
theorem semantic_exportTo (hs : Faithful H put granted s) (ref : RefArg) (destination : String)
    (scope : Option String) (overwrite verify : Bool) (mtime now : ℚ) :
    (s.exportTo H ref destination scope overwrite verify mtime now).2.semantic = s.semantic := by
  have hsemantic := (hs.stat ref scope false mtime now).2.1
  unfold ArtifactStore.exportTo
  cases hstat : s.stat H ref scope false mtime now with
  | mk answer s₁ =>
      rw [hstat] at hsemantic
      cases answer with
      | error e => exact hsemantic
      | ok m =>
          dsimp only
          repeat' split
          all_goals exact hsemantic

/-- A put of the machine, from the condition on it. -/
theorem OrderlyPut.putBytes {h : StoreHistory} {raw : Bytes} {scope : String} {now : ℚ}
    (hput : OrderlyPut H h s raw scope now) (hs : Faithful H (puts h) (grantsIn h) s)
    (mediaType kind : String) (l : StoreStep) :
    Faithful H (puts ((l, .stored raw (ArtifactStore.putRef H raw mediaType kind scope)) :: h))
      (grantsIn ((l, .stored raw (ArtifactStore.putRef H raw mediaType kind scope)) :: h))
      (s.putBytes H raw mediaType kind scope now).2 := by
  have hafter := hs.putBytes mediaType kind now hput.clean hput.distinct
  have hputs : puts ((l, StoreReply.stored raw (ArtifactStore.putRef H raw mediaType kind scope)) :: h) =
      (refOf (H.digest.hexdigest raw), raw) :: puts h := rfl
  rw [hputs, grantsIn_cons]
  exact hafter

/-- A step that puts and grants nothing. -/
theorem Faithful.other {h : StoreHistory} (hs : Faithful H (puts h) (grantsIn h) s)
    {e : StoreStep × StoreReply} (hput : putOf e.2 = none) (hgrant : grantOf e.2 = none) :
    Faithful H (puts (e :: h)) (grantsIn (e :: h)) s := by
  rw [puts_cons_of_none hput, grantsIn_cons, hgrant]
  exact hs

/-- **A step keeps the store faithful to its history.** -/
theorem Faithful.step {h : StoreHistory} {l : StoreStep} {r : StoreReply} {s' : ArtifactStore}
    (hs : Faithful H (puts h) (grantsIn h) s) (hl : Orderly H h s l)
    (hstep : ArtifactStore.step H l s = (r, s')) :
    Faithful H (puts ((l, r) :: h)) (grantsIn ((l, r) :: h)) s' := by
  cases l with
  | putBytes raw mediaType kind scope now =>
      obtain ⟨rfl, rfl⟩ := Prod.mk.inj hstep
      exact OrderlyPut.putBytes hl hs mediaType kind _
  | putText value kind scope now =>
      obtain ⟨rfl, rfl⟩ := Prod.mk.inj hstep
      exact OrderlyPut.putBytes hl hs _ kind _
  | putJson value kind scope now =>
      obtain ⟨rfl, rfl⟩ := Prod.mk.inj hstep
      exact OrderlyPut.putBytes hl hs _ kind _
  | putFile source mediaType kind scope maxBytes now =>
      unfold ArtifactStore.step ArtifactStore.putFile at hstep
      dsimp only at hstep
      cases hsource : s.file source with
      | none =>
          rw [hsource] at hstep
          obtain ⟨rfl, rfl⟩ := Prod.mk.inj hstep
          exact hs.other rfl rfl
      | some raw =>
          rw [hsource] at hstep
          dsimp only at hstep
          split at hstep
          · obtain ⟨rfl, rfl⟩ := Prod.mk.inj hstep
            exact hs.other rfl rfl
          · obtain ⟨rfl, rfl⟩ := Prod.mk.inj hstep
            exact OrderlyPut.putBytes (hl raw hsource) hs mediaType kind _
  | grant ref scope sourceScope verify mtime now =>
      unfold ArtifactStore.step at hstep
      dsimp only at hstep
      rcases hs.grant sourceScope verify mtime with
        ⟨e, s₁, heq, hafter⟩ | ⟨given, s₁, heq, hafter⟩
      · rw [heq] at hstep
        obtain ⟨rfl, rfl⟩ := Prod.mk.inj hstep
        exact hafter.other rfl rfl
      · rw [heq] at hstep
        obtain ⟨rfl, rfl⟩ := Prod.mk.inj hstep
        rw [puts_cons_of_none rfl, grantsIn_cons]
        exact hafter
  | stat ref scope verify mtime now =>
      unfold ArtifactStore.step at hstep
      dsimp only at hstep
      have hafter := (hs.stat ref scope verify mtime now).1
      cases hstat : s.stat H ref scope verify mtime now with
      | mk answer s₁ =>
          rw [hstat] at hstep hafter
          obtain ⟨rfl, rfl⟩ := Prod.mk.inj hstep
          cases answer <;> exact hafter.other rfl rfl
  | exportTo ref destination scope overwrite verify mtime now =>
      unfold ArtifactStore.step at hstep
      dsimp only at hstep
      have hafter := hs.exportTo ref scope overwrite verify mtime now hl
      cases hexport : s.exportTo H ref destination scope overwrite verify mtime now with
      | mk answer s₁ =>
          rw [hexport] at hstep hafter
          obtain ⟨rfl, rfl⟩ := Prod.mk.inj hstep
          cases answer <;> exact hafter.other rfl rfl
  | place path raw =>
      obtain ⟨rfl, rfl⟩ := Prod.mk.inj hstep
      exact (hs.write hl raw).other rfl rfl

/-- **A step keeps the times of grants apart.** -/
theorem Timed.step {h : StoreHistory} {l : StoreStep} {r : StoreReply} {s' : ArtifactStore}
    (ht : Timed s) (hs : Faithful H (puts h) (grantsIn h) s) (hl : Orderly H h s l)
    (hstep : ArtifactStore.step H l s = (r, s')) : Timed s' := by
  cases l with
  | putBytes raw mediaType kind scope now =>
      obtain ⟨-, rfl⟩ := Prod.mk.inj hstep
      exact ht.putBytes mediaType kind hl.fresh
  | putText value kind scope now =>
      obtain ⟨-, rfl⟩ := Prod.mk.inj hstep
      exact ht.putBytes _ kind hl.fresh
  | putJson value kind scope now =>
      obtain ⟨-, rfl⟩ := Prod.mk.inj hstep
      exact ht.putBytes _ kind hl.fresh
  | putFile source mediaType kind scope maxBytes now =>
      unfold ArtifactStore.step ArtifactStore.putFile at hstep
      dsimp only at hstep
      cases hsource : s.file source with
      | none =>
          rw [hsource] at hstep
          obtain ⟨-, rfl⟩ := Prod.mk.inj hstep
          exact ht
      | some raw =>
          rw [hsource] at hstep
          dsimp only at hstep
          split at hstep
          · obtain ⟨-, rfl⟩ := Prod.mk.inj hstep
            exact ht
          · obtain ⟨-, rfl⟩ := Prod.mk.inj hstep
            exact ht.putBytes mediaType kind (hl raw hsource).fresh
  | grant ref scope sourceScope verify mtime now =>
      obtain ⟨-, rfl⟩ := Prod.mk.inj hstep
      exact hs.timed_grant ht sourceScope verify mtime hl
  | stat ref scope verify mtime now =>
      obtain ⟨-, rfl⟩ := Prod.mk.inj hstep
      exact ht.of_semantic (hs.stat ref scope verify mtime now).2.1
  | exportTo ref destination scope overwrite verify mtime now =>
      obtain ⟨-, rfl⟩ := Prod.mk.inj hstep
      exact ht.of_semantic (semantic_exportTo hs ref destination scope overwrite verify mtime now)
  | place path raw =>
      obtain ⟨-, rfl⟩ := Prod.mk.inj hstep
      exact ht

end Faithful

/-- **In orderly runs the store is faithful to its history.** -/
theorem faithful_of_run {H : StoreHost} {h : StoreHistory} {s : ArtifactStore}
    (hrun : (artifacts H).RunWhere (Orderly H) h s) :
    Faithful H (puts h) (grantsIn h) s ∧ Timed s :=
  Machine.RunWhere.invariant (M := artifacts H)
    (I := fun h s => Faithful H (puts h) (grantsIn h) s ∧ Timed s)
    ⟨faithful_empty H, fun _ hg => absurd hg List.not_mem_nil⟩
    (fun _ _ _ _ _ _ hs hl hstep => ⟨hs.1.step hl hstep, hs.2.step hs.1 hl hstep⟩) hrun

/-! ## 6.  Readers -/

section Readers

variable {H : StoreHost} {put : List (String × Bytes)} {granted : List (String × String)}
  {s : ArtifactStore}

theorem mem_rows_of_mem_granted (hs : Faithful H put granted s) {scope ref : String} :
    (scope, ref) ∈ granted ↔ ∃ g ∈ s.semantic.rows, g.scope = scope ∧ g.ref = ref :=
  (hs.exact scope ref).symm

/-- There is a grant for `stat` to pick when there is any. -/
theorem exists_statGrant {scope : String} {ref : RefArg} :
    (∃ g, s.statGrant scope ref = some g) ↔
      ∃ g ∈ s.semantic.rows, g.scope = scope ∧ g.ref = ref.ref := by
  constructor
  · rintro ⟨g, hg⟩
    exact ⟨g, statGrant_mem hg⟩
  · rintro ⟨g, hg⟩
    refine Option.ne_none_iff_exists'.mp fun hnone => ?_
    have hempty : s.grantsOf scope ref.ref = [] := List.argmax_eq_none.mp hnone
    have hmem := mem_grantsOf.mpr hg
    rw [hempty] at hmem
    exact absurd hmem List.not_mem_nil

/-- A grant names its digest. -/
theorem Faithful.refParts (hs : Faithful H put granted s) {g : ArtifactGrant}
    (hg : g ∈ s.semantic.rows) : refParts g.ref = .ok g.sha256 ∧ IsDigest g.sha256 := by
  obtain ⟨raw, hput, hsha, _⟩ := hs.grants g hg
  have hdigest : IsDigest g.sha256 := hsha ▸ H.digest.isDigest raw
  refine ⟨?_, hdigest⟩
  rw [hs.refs _ _ hput, hsha]
  exact refParts_refOf (hsha ▸ hdigest)

/-- The file of a grant is there, and it holds what the grant tells. -/
theorem Faithful.file (hs : Faithful H put granted s) {g : ArtifactGrant}
    (hg : g ∈ s.semantic.rows) :
    ∃ raw, s.file (H.path g.sha256) = some raw ∧ (g.ref, raw) ∈ put ∧
      H.digest.hexdigest raw = g.sha256 ∧ raw.length = g.bytes := by
  obtain ⟨raw, hput, hsha, hbytes⟩ := hs.grants g hg
  obtain ⟨hparts, hdigest⟩ := hs.refParts hg
  have href := (refParts_eq_ok hparts).1
  refine ⟨raw, (hs.files g.sha256 raw hdigest).mpr ?_, hput, hsha.symm, hbytes.symm⟩
  rw [← href]
  exact hput

/-- The file of a grant passes the check, verified or not. -/
theorem Faithful.checkFile (hs : Faithful H put granted s) {g : ArtifactGrant}
    (hg : g ∈ s.semantic.rows) (verify : Bool) :
    s.checkFile H (ArtifactStore.grantMetadata g) g.sha256 verify =
      .ok (ArtifactStore.grantMetadata g) := by
  obtain ⟨raw, hfile, _, hsha, hbytes⟩ := hs.file hg
  unfold ArtifactStore.checkFile
  rw [hfile]
  simp [ArtifactStore.grantMetadata, hsha, hbytes]

/-- **`stat` of a scope answers with its grant**, verified or not. -/
theorem Faithful.statScoped (hs : Faithful H put granted s) {ref : RefArg} {scope : String}
    {g : ArtifactGrant} (hscope : strip scope ≠ "") (hg : s.statGrant (strip scope) ref = some g)
    (verify : Bool) : s.statScoped H ref scope verify = .ok (ArtifactStore.grantMetadata g) := by
  obtain ⟨hmem, _, href⟩ := statGrant_mem hg
  unfold ArtifactStore.statScoped cleanScope
  rw [← href, (hs.refParts hmem).1, if_neg hscope]
  simp only [bind, Except.bind, hg]
  exact hs.checkFile hmem verify

/-- What can be read under a scope. -/
theorem Faithful.readable_iff (hs : Faithful H put granted s) (ref scope : String) :
    (∃ raw, s.readBytesScoped H ref scope = .ok raw) ↔
      strip scope ≠ "" ∧ (strip scope, ref) ∈ granted := by
  rw [mem_rows_of_mem_granted hs]
  constructor
  · rintro ⟨raw, hread⟩
    unfold ArtifactStore.readBytesScoped at hread
    cases hstat : s.statScoped H (.text ref) scope false with
    | error e =>
        rw [hstat] at hread
        cases hread
    | ok m =>
        obtain ⟨hscope, g, hg, _⟩ := statScoped_eq_ok hstat
        exact ⟨hscope, exists_statGrant.mp ⟨g, hg⟩⟩
  · rintro ⟨hscope, hgrant⟩
    obtain ⟨g, hg⟩ : ∃ g, s.statGrant (strip scope) (.text ref) = some g :=
      exists_statGrant.mpr hgrant
    obtain ⟨hmem, _, href⟩ := statGrant_mem hg
    obtain ⟨raw, hfile, _⟩ := hs.file hmem
    have hparts := (hs.refParts hmem).1
    refine ⟨raw, ?_⟩
    unfold ArtifactStore.readBytesScoped ArtifactStore.readBytes
    rw [hs.statScoped hscope hg, show ref = g.ref from href.symm, hparts]
    simp only [bind, Except.bind, hfile]

/-- What is read is what was put. -/
theorem Faithful.read_eq (hs : Faithful H put granted s) {ref scope : String} {raw : Bytes}
    (h : s.readBytesScoped H ref scope = .ok raw) :
    ∀ raw', (ref, raw') ∈ put ↔ raw' = raw := by
  unfold ArtifactStore.readBytesScoped ArtifactStore.readBytes at h
  cases hstat : s.statScoped H (.text ref) scope false with
  | error e =>
      rw [hstat] at h
      cases h
  | ok m =>
      rw [hstat] at h
      cases hparts : VariantOne.Artifacts.refParts ref with
      | error e =>
          rw [hparts] at h
          cases h
      | ok digest =>
          rw [hparts] at h
          obtain ⟨rfl, hdigest⟩ := refParts_eq_ok hparts
          simp only [bind, Except.bind] at h
          cases hfile : s.file (H.path digest) with
          | none =>
              rw [hfile] at h
              cases h
          | some raw₀ =>
              rw [hfile] at h
              obtain rfl := Except.ok.inj h
              intro raw'
              rw [← hs.files digest raw' hdigest, hfile, Option.some.injEq]
              exact eq_comm

/-- **`stat` without hints picks the grant of rank 1.** -/
theorem Faithful.statGrant_text (hs : Faithful H put granted s) (ht : Timed s) (scope ref : String) :
    s.statGrant scope (.text ref) = s.rankedGrant scope ref := by
  cases hstat : s.statGrant scope (.text ref) with
  | none =>
      have hempty : s.grantsOf scope ref = [] := List.argmax_eq_none.mp hstat
      unfold ArtifactStore.rankedGrant
      rw [hempty, List.argmax_nil]
  | some g =>
      cases hranked : s.rankedGrant scope ref with
      | none =>
          have hempty : s.grantsOf scope ref = [] := List.argmax_eq_none.mp hranked
          have hmem := mem_grantsOf.mpr (statGrant_mem hstat)
          rw [show RefArg.ref (.text ref) = ref from rfl, hempty] at hmem
          exact absurd hmem List.not_mem_nil
      | some g' =>
          -- Both grants are the latest: there are no others of their time.
          have hin : g ∈ s.grantsOf scope ref := List.argmax_mem (Option.mem_def.mpr hstat)
          have hin' : g' ∈ s.grantsOf scope ref := List.argmax_mem (Option.mem_def.mpr hranked)
          obtain ⟨hmem, hscope, href⟩ := mem_grantsOf.mp hin
          obtain ⟨hmem', hscope', href'⟩ := mem_grantsOf.mp hin'
          have hle := List.le_of_mem_argmax hin' (Option.mem_def.mpr hstat)
          have hle' := List.le_of_mem_argmax hin (Option.mem_def.mpr hranked)
          have hno : ¬ (g.mediaType = (RefArg.text ref).mediaType ∧ g.kind = (RefArg.text ref).kind) :=
            fun h => (hs.typed g hmem).1 h.1
          have hno' : ¬ (g'.mediaType = (RefArg.text ref).mediaType ∧
              g'.kind = (RefArg.text ref).kind) := fun h => (hs.typed g' hmem').1 h.1
          rw [if_neg hno, if_neg hno', Prod.Lex.toLex_le_toLex] at hle
          rw [Prod.Lex.toLex_le_toLex] at hle'
          have htime : g'.createdAt ≤ g.createdAt := by
            rcases hle with hlt | ⟨_, hle⟩
            · exact absurd hlt (lt_irrefl 0)
            · exact hle
          have htime' : g.createdAt ≤ g'.createdAt := by
            rcases hle' with hlt | ⟨heq, _⟩
            · exact hlt.le
            · exact heq.le
          rw [ht g hmem g' hmem' (hscope.trans hscope'.symm) (href.trans href'.symm)
            (le_antisymm htime' htime)]

theorem mem_scopeRefs {scope ref : String} :
    ref ∈ s.scopeRefs scope ↔ ∃ g ∈ s.semantic.rows, g.scope = scope ∧ g.ref = ref := by
  simp [ArtifactStore.scopeRefs, List.mem_insertionSort, and_assoc]

/-- References are listed in increasing order, each once. -/
theorem scopeRefs_pairwise (s : ArtifactStore) (scope : String) :
    (s.scopeRefs scope).Pairwise (· < ·) := by
  unfold ArtifactStore.scopeRefs
  set refs := ((s.semantic.rows.filter fun g => g.scope = scope).map (·.ref)).dedup
  have hsorted : (refs.insertionSort (· ≤ ·)).Pairwise (· ≤ ·) := List.pairwise_insertionSort _ refs
  have hnodup : (refs.insertionSort (· ≤ ·)).Nodup :=
    (List.perm_insertionSort _ refs).nodup_iff.mpr (List.nodup_dedup _)
  exact (hsorted.and hnodup).imp fun h => lt_of_le_of_ne h.1 h.2

theorem rankedGrant_mem {scope ref : String} {g : ArtifactGrant}
    (h : s.rankedGrant scope ref = some g) :
    g ∈ s.semantic.rows ∧ g.scope = scope ∧ g.ref = ref :=
  mem_grantsOf.mp (List.argmax_mem (Option.mem_def.mpr h))

/-- The grants of rank 1 are of the references of the scope. -/
theorem map_ref_rankedGrants (s : ArtifactStore) (scope : String) :
    (s.rankedGrants scope).map (·.ref) = s.scopeRefs scope := by
  have hpick : ∀ ref ∈ s.scopeRefs scope, ∃ g, s.rankedGrant scope ref = some g := by
    intro ref href
    obtain ⟨g, hg⟩ := mem_scopeRefs.mp href
    refine Option.ne_none_iff_exists'.mp fun hnone => ?_
    have hempty : s.grantsOf scope ref = [] := List.argmax_eq_none.mp hnone
    have hmem := mem_grantsOf.mpr hg
    rw [hempty] at hmem
    exact absurd hmem List.not_mem_nil
  unfold ArtifactStore.rankedGrants
  generalize s.scopeRefs scope = refs at hpick ⊢
  induction refs with
  | nil => rfl
  | cons ref refs ih =>
      obtain ⟨g, hg⟩ := hpick ref List.mem_cons_self
      rw [List.filterMap_cons, hg]
      dsimp only
      rw [List.map_cons, (rankedGrant_mem hg).2.2,
        ih fun ref' href' => hpick ref' (List.mem_cons_of_mem _ href')]

theorem rankedGrants_pairwise (s : ArtifactStore) (scope : String) :
    (s.rankedGrants scope).Pairwise fun g g' => g.ref < g'.ref := by
  rw [← List.pairwise_map, map_ref_rankedGrants]
  exact scopeRefs_pairwise s scope

theorem mem_rankedGrants {scope : String} {g : ArtifactGrant} (h : g ∈ s.rankedGrants scope) :
    s.rankedGrant scope g.ref = some g := by
  obtain ⟨ref, _, hg⟩ := List.mem_filterMap.mp h
  rw [(rankedGrant_mem hg).2.2]
  exact hg

/-- A check that every entry passes leaves a list as it is. -/
theorem mapM_eq_ok_self {α ε : Type} {f : α → Except ε α} {xs : List α}
    (h : ∀ x ∈ xs, f x = .ok x) : xs.mapM f = .ok xs := by
  induction xs with
  | nil => rfl
  | cons x xs ih =>
      rw [List.mapM_cons, h x List.mem_cons_self, ih fun y hy => h y (List.mem_cons_of_mem _ hy)]
      rfl

/-- The items of a page pass their verification. -/
theorem Faithful.verified (hs : Faithful H put granted s) (ht : Timed s) {scope : String} (hscope : strip scope ≠ "")
    {page : List ArtifactGrant} (hpage : ∀ g ∈ page, g ∈ s.rankedGrants (strip scope)) :
    (page.map ArtifactStore.grantMetadata).mapM (fun item : ArtifactMetadata =>
      s.statScoped H (.text item.ref) (strip scope) true) =
        .ok (page.map ArtifactStore.grantMetadata) := by
  refine mapM_eq_ok_self fun item hitem => ?_
  obtain ⟨g, hg, rfl⟩ := List.mem_map.mp hitem
  have hranked := mem_rankedGrants (hpage g hg)
  rw [← hs.statGrant_text ht, ← strip_strip scope] at hranked
  exact hs.statScoped (by rwa [strip_strip]) hranked true

theorem mem_of_mem_pageBy {rows : List ArtifactGrant} (n : Nat) (cursor : String) {g : ArtifactGrant}
    (h : g ∈ (Keyset.pageBy ArtifactGrant.ref rows n cursor).1) : g ∈ rows :=
  List.mem_of_mem_filter (List.mem_of_mem_take h)

/-- **Verification changes no manifest.** -/
theorem Faithful.manifest_verify (hs : Faithful H put granted s) (ht : Timed s) (scope : String) (limit : Int)
    (afterRef : String) :
    s.manifest H scope limit afterRef true = s.manifest H scope limit afterRef false := by
  unfold ArtifactStore.manifest cleanScope
  by_cases hscope : strip scope = ""
  · rw [if_pos hscope]
    rfl
  · rw [if_neg hscope]
    have hverified := hs.verified ht hscope
      fun g hg => mem_of_mem_pageBy (ArtifactStore.manifestLimit limit) (strip afterRef) hg
    simp only [bind, Except.bind, if_true, hverified]
    rfl

/-- The manifest after the start or after a reference. -/
theorem Faithful.manifest_eq (hs : Faithful H put granted s) (ht : Timed s) {scope cursor : String} (limit : Int)
    (verify : Bool) (hscope : strip scope ≠ "")
    (hcursor : cursor = "" ∨ ∃ digest, IsDigest digest ∧ cursor = refOf digest) :
    s.manifest H scope limit cursor verify =
      let page := Keyset.pageBy ArtifactGrant.ref (s.rankedGrants (strip scope))
        (ArtifactStore.manifestLimit limit) cursor
      .ok (ArtifactStore.manifestOf H (strip scope) (page.1.map ArtifactStore.grantMetadata) page.2) := by
  have hplain : s.manifest H scope limit cursor verify = s.manifest H scope limit cursor false := by
    cases verify with
    | false => rfl
    | true => exact hs.manifest_verify ht scope limit cursor
  rw [hplain]
  unfold ArtifactStore.manifest cleanScope
  rw [if_neg hscope]
  rcases hcursor with rfl | ⟨digest, hdigest, rfl⟩
  · rw [strip_nil]
    rfl
  · have hparts := refParts_refOf hdigest
    rw [strip_refOf hdigest]
    by_cases hempty : refOf digest = ""
    · simp [bind, Except.bind, pure, Except.pure, hempty]
    · simp [bind, Except.bind, pure, Except.pure, hempty, hparts]

end Readers

/-! ## 7.  Following the pages -/

/-- Manifest after manifest, each after the `next_after_ref` of the one before, with a limit of its own. -/
def ArtifactStore.manifestPages (H : StoreHost) (scope : String) (verify : Bool) (s : ArtifactStore) :
    List Int → String → Except ArtifactError (List ArtifactManifest)
  | [], _ => .ok []
  | limit :: limits, afterRef =>
      match s.manifest H scope limit afterRef verify with
      | .error e => .error e
      | .ok m =>
          if m.hasMore then
            match ArtifactStore.manifestPages H scope verify s limits m.nextAfterRef with
            | .error e => .error e
            | .ok later => .ok (m :: later)
          else .ok [m]

/-- The references that pages list. -/
def listed (pages : List ArtifactManifest) : List String := pages.flatMap fun m => m.items.map (·.ref)

section Pages

variable {H : StoreHost} {put : List (String × Bytes)} {granted : List (String × String)}
  {s : ArtifactStore}

/-- The start of the pages is before every reference. -/
theorem empty_lt_refOf (digest : String) : "" < refOf digest := by
  rw [refOf, String.lt_iff_toList_lt, String.toList_append]
  exact List.nil_lt_cons _ _

theorem manifestLimit_pos (limit : Int) : 0 < ArtifactStore.manifestLimit limit := by
  unfold ArtifactStore.manifestLimit
  omega

/-- Following the pages is following the pages of the grants. -/
theorem Faithful.manifestPages (hs : Faithful H put granted s) (ht : Timed s) {scope : String} (verify : Bool)
    (hscope : strip scope ≠ "") (limits : List Int) {cursor : String}
    (hcursor : cursor = "" ∨ ∃ digest, IsDigest digest ∧ cursor = refOf digest) :
    ∃ pages, s.manifestPages H scope verify limits cursor = .ok pages ∧
      listed pages = ((Keyset.pagesBy ArtifactGrant.ref (s.rankedGrants (strip scope))
        (limits.map ArtifactStore.manifestLimit) cursor).flatten).map (·.ref) := by
  induction limits generalizing cursor with
  | nil => exact ⟨[], rfl, rfl⟩
  | cons limit limits ih =>
      have hfirst := hs.manifest_eq ht limit verify hscope hcursor
      have hn := manifestLimit_pos limit
      have hsource : ∀ g ∈ (Keyset.pageBy ArtifactGrant.ref (s.rankedGrants (strip scope))
          (ArtifactStore.manifestLimit limit) cursor).1, g ∈ s.rankedGrants (strip scope) :=
        fun g => mem_of_mem_pageBy _ _
      have hlast : (Keyset.pageBy ArtifactGrant.ref (s.rankedGrants (strip scope))
          (ArtifactStore.manifestLimit limit) cursor).2 = true → ∃ g, (Keyset.pageBy ArtifactGrant.ref
            (s.rankedGrants (strip scope)) (ArtifactStore.manifestLimit limit) cursor).1.getLast? = some g :=
        Keyset.exists_last_of_more hn cursor
      unfold ArtifactStore.manifestPages
      rw [hfirst, List.map_cons, Keyset.pagesBy]
      generalize Keyset.pageBy ArtifactGrant.ref (s.rankedGrants (strip scope))
        (ArtifactStore.manifestLimit limit) cursor = page at hsource hlast ⊢
      obtain ⟨page, more⟩ := page
      have hitems : listed [ArtifactStore.manifestOf H (strip scope)
          (page.map ArtifactStore.grantMetadata) more] = page.map (·.ref) := by
        simp [listed, ArtifactStore.manifestOf, ArtifactStore.grantMetadata]
      cases more with
      | false =>
          refine ⟨_, rfl, ?_⟩
          rw [hitems]
          simp
      | true =>
          -- A page that leaves some has a last grant, and the next one starts after it.
          obtain ⟨g, hg⟩ := hlast rfl
          have hmem := (rankedGrant_mem (mem_rankedGrants (hsource g (List.mem_of_getLast? hg)))).1
          obtain ⟨hparts, hdigest⟩ := hs.refParts hmem
          obtain ⟨pages, hpages, hlisted⟩ := ih (.inr ⟨_, hdigest, (refParts_eq_ok hparts).1⟩)
          have hnext : (ArtifactStore.manifestOf H (strip scope)
              (page.map ArtifactStore.grantMetadata) true).nextAfterRef = g.ref := by
            simp [ArtifactStore.manifestOf, hg, ArtifactStore.grantMetadata]
          refine ⟨ArtifactStore.manifestOf H (strip scope) (page.map ArtifactStore.grantMetadata) true ::
            pages, ?_, ?_⟩
          · have hmore : (ArtifactStore.manifestOf H (strip scope)
                (page.map ArtifactStore.grantMetadata) true).hasMore = true := rfl
            dsimp only
            rw [hmore, if_pos rfl, hnext, hpages]
          · have hsplit : listed (ArtifactStore.manifestOf H (strip scope)
                (page.map ArtifactStore.grantMetadata) true :: pages) =
                  page.map (·.ref) ++ listed pages := by
              rw [← hitems]
              simp [listed]
            rw [hsplit, hlisted]
            dsimp only at hg ⊢
            rw [hg]
            dsimp only
            rw [List.flatten_cons, List.map_append]

/-- **The pages of a manifest list the references of the scope**, each once and in order. -/
theorem Faithful.listed_pages (hs : Faithful H put granted s) (ht : Timed s) {scope : String} (verify : Bool)
    (hscope : strip scope ≠ "") {limits : List Int}
    (hlong : (s.scopeRefs (strip scope)).length < limits.length) :
    ∃ pages, s.manifestPages H scope verify limits "" = .ok pages ∧
      listed pages = s.scopeRefs (strip scope) := by
  obtain ⟨pages, hpages, hlisted⟩ := hs.manifestPages ht verify hscope limits (.inl rfl)
  refine ⟨pages, hpages, ?_⟩
  have hall : ((s.rankedGrants (strip scope)).filter fun g => "" < g.ref) =
      s.rankedGrants (strip scope) := by
    refine List.filter_eq_self.mpr fun g hg => decide_eq_true ?_
    have hmem := (rankedGrant_mem (mem_rankedGrants hg)).1
    rw [(refParts_eq_ok (hs.refParts hmem).1).1]
    exact empty_lt_refOf g.sha256
  rw [hlisted, Keyset.flatten_pagesBy (rankedGrants_pairwise s _), hall, map_ref_rankedGrants]
  · intro n hn
    obtain ⟨limit, _, rfl⟩ := List.mem_map.mp hn
    exact manifestLimit_pos limit
  · rw [hall, List.length_map, ← List.length_map (f := ArtifactGrant.ref), map_ref_rankedGrants]
    exact hlong

end Pages

/-! ## 8.  Exact grants -/

/-- **Grants are exact.** -/
structure ExactGrants (H : StoreHost) (h : StoreHistory) (s : ArtifactStore) : Prop where
  /-- A scope reads what was put or granted under it. -/
  readable : ∀ ref scope, (∃ raw, s.readBytesScoped H ref scope = .ok raw) ↔
    (strip scope, ref) ∈ grantsIn h
  /-- It reads the bytes that were put. -/
  content : ∀ ref scope raw, s.readBytesScoped H ref scope = .ok raw →
    ∀ raw', (ref, raw') ∈ puts h ↔ raw' = raw
  /-- A scope passes on what it could read. -/
  source : ∀ ref scope sourceScope verify mtime now given s',
    s.grant H ref scope (some sourceScope) verify mtime now = (.ok given, s') →
      ∃ raw, s.readBytesScoped H ref.ref sourceScope = .ok raw
  /-- The pages list what the scope can read, each reference once and in order. -/
  pages : ∀ scope verify limits, strip scope ≠ "" →
    (s.scopeRefs (strip scope)).length < limits.length →
      ∃ pages, s.manifestPages H scope verify limits "" = .ok pages ∧
        (listed pages).Pairwise (· < ·) ∧
        ∀ ref, ref ∈ listed pages ↔ ∃ raw, s.readBytesScoped H ref scope = .ok raw
  verified : ∀ scope limit afterRef m, s.manifest H scope limit afterRef true = .ok m →
    s.manifest H scope limit afterRef false = .ok m

/-- What a scope can read was granted to it. -/
theorem Faithful.readable {H : StoreHost} {put : List (String × Bytes)}
    {granted : List (String × String)} {s : ArtifactStore} (hs : Faithful H put granted s)
    (ref scope : String) :
    (∃ raw, s.readBytesScoped H ref scope = .ok raw) ↔ (strip scope, ref) ∈ granted := by
  rw [hs.readable_iff]
  refine ⟨fun h => h.2, fun hmem => ⟨?_, hmem⟩⟩
  obtain ⟨g, hg, hscope, _⟩ := (mem_rows_of_mem_granted hs).mp hmem
  rw [← hscope]
  exact (hs.clean g hg).2

/-- **In orderly runs grants are exact.** -/
theorem grants_exact (H : StoreHost) {h : StoreHistory} {s : ArtifactStore}
    (hrun : (artifacts H).RunWhere (Orderly H) h s) : ExactGrants H h s := by
  obtain ⟨hs, ht⟩ := faithful_of_run hrun
  refine ⟨hs.readable, fun ref scope raw hread => hs.read_eq hread, ?_, ?_, ?_⟩
  · intro ref scope sourceScope verify mtime now given s' hgrant
    unfold ArtifactStore.grant at hgrant
    cases hclean : cleanScope scope with
    | error e =>
        rw [hclean] at hgrant
        cases hgrant
    | ok target =>
        cases hstat : s.statScoped H ref sourceScope verify with
        | error e =>
            rw [hclean] at hgrant
            simp only [ArtifactStore.stat, hstat] at hgrant
            cases hgrant
        | ok m =>
            obtain ⟨hscope, g, hg, _⟩ := statScoped_eq_ok hstat
            rw [hs.readable, mem_rows_of_mem_granted hs]
            exact ⟨g, statGrant_mem hg⟩
  · intro scope verify limits hscope hlong
    obtain ⟨pages, hpages, hlisted⟩ := hs.listed_pages ht verify hscope hlong
    refine ⟨pages, hpages, ?_, fun ref => ?_⟩
    · rw [hlisted]
      exact scopeRefs_pairwise s _
    · rw [hlisted, mem_scopeRefs, hs.readable, mem_rows_of_mem_granted hs]
  · intro scope limit afterRef m hm
    rw [← hs.manifest_verify ht]
    exact hm

/-- SHA-256 of no bytes. -/
def emptySha : String := "e3b0c44298fc1c149afbf4c8996fb92427ae41e4649b934ca495991b7852b855"

theorem isDigest_emptySha : IsDigest emptySha := by decide +kernel

/-- A store for examples with no bytes. -/
def emptyHost : StoreHost :=
  ⟨"/cas", ⟨fun _ => emptySha, fun _ => isDigest_emptySha⟩, fun scope _ _ _ => scope⟩

/-- The rows of a store after its first put. -/
theorem scope_of_first_put {H : StoreHost} {raw : Bytes} {mediaType kind scope : String} {now : ℚ}
    {g : ArtifactGrant}
    (hg : g ∈ (ArtifactStore.empty.putBytes H raw mediaType kind scope now).2.semantic.rows) :
    g.scope = scope := by
  rcases mem_semantic_recordGrant hg with hg | ⟨_, rfl⟩
  · split at hg <;> cases hg
  · rfl

/-- A put and a grant of what was put. -/
theorem grants_exact_put_grant :
    ∃ h s, h.length = 2 ∧ ("s", refOf emptySha) ∈ grantsIn h ∧ ExactGrants emptyHost h s := by
  have hput : Orderly emptyHost [] ArtifactStore.empty (.putBytes [] "" "" "s" 1) :=
    ⟨by decide, fun g hg => absurd hg List.not_mem_nil, fun raw' hmem => absurd hmem List.not_mem_nil⟩
  have hgrant : ∀ h, Orderly emptyHost h (ArtifactStore.empty.putBytes emptyHost [] "" "" "s" 1).2
      (.grant (.text (refOf emptySha)) " t" (some "s") true 0 2) := fun h g hg hscope => by
    rw [scope_of_first_put hg] at hscope
    exact absurd hscope (by decide)
  refine ⟨_, _, rfl, ?_, grants_exact emptyHost (.step (.step .start hput Prod.mk.eta.symm) (hgrant _)
    Prod.mk.eta.symm)⟩
  rw [grantsIn_cons]
  exact List.mem_append_right _ List.mem_cons_self

/-- **A put under a scope with a blank before it is read under no scope.** -/
theorem blank_scope_unreadable :
    ∃ h s, (artifacts emptyHost).Run h s ∧ ¬ ExactGrants emptyHost h s := by
  refine ⟨_, _, .step (l := .putBytes [] "" "" " s" 1) .start Prod.mk.eta.symm, fun hexact => ?_⟩
  have hgranted := (hexact.readable (refOf emptySha) "s").mpr List.mem_cons_self
  obtain ⟨raw, hread⟩ := hgranted
  unfold ArtifactStore.readBytesScoped at hread
  cases hstat : (ArtifactStore.empty.putBytes emptyHost [] "" "" " s" 1).2.statScoped emptyHost
      (.text (refOf emptySha)) "s" false with
  | error e =>
      rw [show ((artifacts emptyHost).step (.putBytes [] "" "" " s" 1) (artifacts emptyHost).start).2 =
        (ArtifactStore.empty.putBytes emptyHost [] "" "" " s" 1).2 from rfl, hstat] at hread
      cases hread
  | ok m =>
      obtain ⟨_, g, hg, _⟩ := statScoped_eq_ok hstat
      obtain ⟨hmem, hscope, _⟩ := statGrant_mem hg
      rw [scope_of_first_put hmem] at hscope
      exact absurd hscope (by decide)

end Artifacts
end VariantOne
