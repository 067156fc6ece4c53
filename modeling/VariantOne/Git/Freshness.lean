import Mathlib.Data.Set.Function
import VariantOne.Git.Formats
import VariantOne.Git.Status

/-!
# What a fingerprint tells apart

Two fingerprints are equal exactly when Git prints the same and the same bytes are read for every untracked
path (`fingerprint_eq_iff`, for a hash that is injective on the values hashed).  That is less than that
nothing changed: a symbolic link and a file are hashed alike, and a path with a backslash is read under the
name that has a slash in its place.  `freshness_exact` says of every two states of a repository that these
are the changes which a review does not notice.

The material is read back in its order: the head has no NUL; no token of the stream is empty, so that the
first empty one is where the stream ends; and digests have 32 bytes.
-/

namespace VariantOne
namespace Git

open Surrogates (decode point encode)

/-! ## 1.  The states of a repository -/

/-- The bytes by which an object is hashed. -/
def Node.bytes : Node → Option Bytes
  | .link target => some target
  | .file content => some content
  | .other => none

/-- The bytes by which the object at a path is hashed. -/
def Host.content (H : Host) (root path : CodeText) : Option Bytes :=
  (H.lstat (H.located root path)).bind Node.bytes

/-- The object that Git means by a path. -/
def Host.object (H : Host) (root : CodeText) (path : Bytes) : Option Node :=
  H.lstat (H.located root (decode path))

/-- What `status` hashes. -/
def Host.hashed (H : Host) (sha : Sha256) (root : CodeText) (maxBytes : Nat) : Set Bytes :=
  {data | ∃ o, H.observe root maxBytes = .ok o ∧ data ∈ o.hashed sha}

def StatusRecord.untracked? : StatusRecord → Option PathName
  | .untracked path => some path
  | _ => none

/-- A state of a repository, by the records of its status. -/
structure Repository where
  host : Host
  records : List StatusRecord
  prints : host.run statusCommand = .ok (stream StatusRecord.tokens records)

namespace Repository

/-- The paths that Git does not track. -/
def untracked (S : Repository) : List PathName := S.records.filterMap StatusRecord.untracked?

def head (S : Repository) : CodeText := (statusLines S.records).headOid

/-- **Nothing changed**: the head, the stream, the patches, and what stands at each untracked path. -/
structure Unchanged (root : CodeText) (S T : Repository) : Prop where
  head : S.head = T.head
  stream : stream StatusRecord.tokens S.records = stream StatusRecord.tokens T.records
  index : S.host.run indexPatchCommand = T.host.run indexPatchCommand
  worktree : S.host.run worktreePatchCommand = T.host.run worktreePatchCommand
  objects : ∀ p ∈ S.untracked, S.host.object root p.bytes = T.host.object root p.bytes

/-- The same is read: the stream, the patches, and the bytes under the name that each untracked path is
given. -/
structure Agree (root : CodeText) (S T : Repository) : Prop where
  stream : stream StatusRecord.tokens S.records = stream StatusRecord.tokens T.records
  index : S.host.run indexPatchCommand = T.host.run indexPatchCommand
  worktree : S.host.run worktreePatchCommand = T.host.run worktreePatchCommand
  contents : ∀ p ∈ S.untracked,
    S.host.content root (decode (slashed p.bytes)) = T.host.content root (decode (slashed p.bytes))

/-- One is a link and the other a file, of the same bytes. -/
def Swapped (a b : Option Node) : Prop :=
  ∃ bytes, (a = some (.link bytes) ∧ b = some (.file bytes)) ∨
    (a = some (.file bytes) ∧ b = some (.link bytes))

/-- A change at a path that is not seen: its name has a backslash, or a link and a file took each other's
place. -/
def Hidden (root : CodeText) (S T : Repository) (p : PathName) : Prop :=
  (backslash ∈ p.bytes ∧ S.host.object root p.bytes ≠ T.host.object root p.bytes) ∨
    Swapped (S.host.object root p.bytes) (T.host.object root p.bytes)

end Repository

/-! ## 2.  What is observed -/

theorem Host.untracked_ok {H : Host} {root path : CodeText} {bytes : Bytes} {size : Nat}
    (h : H.untracked root path = .ok (bytes, size)) : H.content root path = some bytes := by
  unfold untracked at h
  dsimp only at h
  by_cases hwithin : commonPath (H.realpath (absPath root)) (H.located root path) ≠ H.realpath (absPath root)
  · rw [if_pos hwithin] at h
    cases h
  rw [if_neg hwithin] at h
  unfold content
  cases hnode : H.lstat (H.located root path) with
  | none =>
      rw [hnode] at h
      cases h
  | some node =>
      rw [hnode] at h
      cases node with
      | link target =>
          dsimp only at h
          rw [Surrogates.encode_decode] at h
          cases h
          rfl
      | file content =>
          dsimp only at h
          split_ifs at h
          cases h
          rfl
      | other => cases h

theorem Host.readUntracked_ok {H : Host} {root : CodeText} {maxBytes admitted : Nat}
    {entries : List StatusEntry} {us : List (CodeText × Bytes)}
    (h : H.readUntracked root maxBytes admitted entries = .ok us) :
    us.map (fun u => (u.1, some u.2)) =
      (entries.filter fun e => e.recordType = .untracked).map fun e => (e.path, H.content root e.path) := by
  induction entries generalizing admitted us with
  | nil =>
      cases h
      rfl
  | cons entry entries ih =>
      rw [readUntracked] at h
      by_cases htype : entry.recordType = .untracked
      · rw [if_neg (not_not_intro htype)] at h
        cases hread : H.untracked root entry.path with
        | error failure =>
            rw [hread] at h
            cases h
        | ok read =>
            obtain ⟨bytes, size⟩ := read
            rw [hread] at h
            replace h : (if maxBytes < admitted + size then
                throw (.gitCommandError "untracked content exceeds the exact fingerprint bound")
              else H.readUntracked root maxBytes (admitted + size) entries >>= fun rest =>
                pure ((entry.path, bytes) :: rest) : Except Failure _) = .ok us := h
            split_ifs at h
            cases hrest : H.readUntracked root maxBytes (admitted + size) entries with
            | error failure =>
                rw [hrest] at h
                cases h
            | ok rest =>
                rw [hrest] at h
                cases h
                rw [List.filter_cons_of_pos (by simpa using htype), List.map_cons, List.map_cons, ih hrest,
                  untracked_ok hread]
      · rw [if_pos htype] at h
        rw [List.filter_cons_of_neg (by simpa using htype)]
        exact ih h

theorem filter_untracked (rs : List StatusRecord) :
    (rs.filterMap StatusRecord.statusEntry).filter (fun e => e.recordType = .untracked) =
      (rs.filterMap StatusRecord.untracked?).map fun p => p.entry .untracked "?" := by
  induction rs with
  | nil => rfl
  | cons r rs ih =>
      cases r with
      | header key value => exact ih
      | ordinary c path => exact ih
      | moved c score path original =>
          refine (List.filter_cons_of_neg ?_).trans ih
          unfold Changed.entry
          split <;> simp
      | unmerged c thirdMode thirdOid path => exact ih
      | untracked path => exact congrArg (path.entry .untracked "?" :: ·) ih
      | ignored path => exact ih

/-- What is observed of a state. -/
structure Observes (S : Repository) (root : CodeText) (o : Observed) : Prop where
  raw : o.raw = stream StatusRecord.tokens S.records
  lines : o.lines = statusLines S.records
  index : S.host.run indexPatchCommand = .ok o.index
  worktree : S.host.run worktreePatchCommand = .ok o.worktree
  untracked : o.untracked.map (fun u => (u.1, some u.2)) =
    S.untracked.map fun p => (decode (slashed p.bytes), S.host.content root (decode (slashed p.bytes)))

/-- The stream is read as its records. -/
theorem Repository.observe_eq (S : Repository) (root : CodeText) (maxBytes : Nat) :
    S.host.observe root maxBytes = (do
      let index ← S.host.run indexPatchCommand
      let worktree ← S.host.run worktreePatchCommand
      let untracked ← S.host.readUntracked root maxBytes 0 (statusLines S.records).2
      return ⟨stream StatusRecord.tokens S.records, statusLines S.records, index, worktree, untracked⟩) := by
  have hread := parseStatus_stream S.records
  unfold Host.observe
  rw [S.prints]
  dsimp only [bind, Except.bind]
  rw [hread]

theorem observes_of_ok {S : Repository} {root : CodeText} {maxBytes : Nat} {o : Observed}
    (h : S.host.observe root maxBytes = .ok o) : Observes S root o := by
  rw [S.observe_eq] at h
  cases hindex : S.host.run indexPatchCommand with
  | error failure =>
      rw [hindex] at h
      cases h
  | ok index =>
      rw [hindex] at h
      cases hworktree : S.host.run worktreePatchCommand with
      | error failure =>
          rw [hworktree] at h
          cases h
      | ok worktree =>
          rw [hworktree] at h
          cases hread : S.host.readUntracked root maxBytes 0 (statusLines S.records).2 with
          | error failure =>
              dsimp only [bind, Except.bind] at h
              rw [hread] at h
              cases h
          | ok untracked =>
              dsimp only [bind, Except.bind] at h
              rw [hread] at h
              cases h
              refine ⟨rfl, rfl, hindex, hworktree, (Host.readUntracked_ok hread).trans ?_⟩
              rw [statusLines, filter_untracked, List.map_map]
              rfl

theorem status_ok {sha : Sha256} {H : Host} {root : CodeText} {maxBytes : Nat} {s : StatusSnapshot}
    (h : status sha H root maxBytes = .ok s) :
    ∃ o, H.observe root maxBytes = .ok o ∧ s.headOid = o.lines.headOid ∧
      s.fingerprint = hexdigest (sha.digest (o.material sha)) := by
  unfold status at h
  cases hobserve : H.observe root maxBytes with
  | error failure =>
      rw [hobserve] at h
      cases h
  | ok o =>
      rw [hobserve] at h
      replace h : (aheadBehind (words (o.lines.header "branch.ab")) (0, 0) >>= fun counts => pure ({
          headOid := o.lines.headOid
          branch :=
            if o.lines.header "branch.head" = lit "(detached)" then [] else o.lines.header "branch.head"
          upstream := o.lines.header "branch.upstream"
          ahead := counts.1
          behind := counts.2
          entries := o.lines.2
          fingerprint := hexdigest (sha.digest (o.material sha)) } : StatusSnapshot)) = .ok s := h
      cases hcounts : aheadBehind (words (o.lines.header "branch.ab")) (0, 0) with
      | error failure =>
          rw [hcounts] at h
          cases h
      | ok counts =>
          rw [hcounts] at h
          cases h
          exact ⟨o, rfl, rfl, rfl⟩

/-! ## 3.  The material -/

theorem digitChar_inj {a b : Nat} (ha : a < 16) (hb : b < 16) (h : Nat.digitChar a = Nat.digitChar b) :
    a = b := by
  have hall : ∀ a b : Fin 16, Nat.digitChar a.val = Nat.digitChar b.val → a = b := by decide
  exact congrArg Fin.val (hall ⟨a, ha⟩ ⟨b, hb⟩ h)

theorem hexdigest_injective : Function.Injective hexdigest := by
  intro d d' h
  induction d generalizing d' with
  | nil =>
      cases d' with
      | nil => rfl
      | cons b d' => cases h
  | cons b d ih =>
      cases d' with
      | nil => cases h
      | cons b' d' =>
          obtain ⟨hhigh, htail⟩ := List.cons.inj h
          obtain ⟨hlow, hrest⟩ := List.cons.inj htail
          have hb := b.toNat_lt
          have hb' := b'.toNat_lt
          have hdiv := digitChar_inj (by omega) (by omega) hhigh
          have hmod := digitChar_inj (by omega) (by omega) hlow
          rw [ih hrest, UInt8.toNat_inj.mp (by omega : b.toNat = b'.toNat)]

theorem StatusRecord.tokens_ne_nil (r : StatusRecord) : ∀ t ∈ r.tokens, t ≠ [] := by
  cases r with
  | moved c score path original =>
      exact List.forall_mem_cons.mpr ⟨List.cons_ne_nil _ _, List.forall_mem_singleton.mpr original.nonempty⟩
  | header => exact List.forall_mem_singleton.mpr (List.cons_ne_nil _ _)
  | ordinary => exact List.forall_mem_singleton.mpr (List.cons_ne_nil _ _)
  | unmerged => exact List.forall_mem_singleton.mpr (List.cons_ne_nil _ _)
  | untracked => exact List.forall_mem_singleton.mpr (List.cons_ne_nil _ _)
  | ignored => exact List.forall_mem_singleton.mpr (List.cons_ne_nil _ _)

/-- What follows the stream is found where its first empty token is. -/
theorem stream_append_inj {rs rs' : List StatusRecord} {rest rest' : Bytes}
    (h : stream StatusRecord.tokens rs ++ nul :: rest = stream StatusRecord.tokens rs' ++ nul :: rest') :
    stream StatusRecord.tokens rs = stream StatusRecord.tokens rs' ∧ rest = rest' := by
  have htokens : ∀ rs : List StatusRecord, ∀ t ∈ rs.flatMap StatusRecord.tokens, nul ∉ t ∧ t ≠ [] := by
    intro rs t ht
    obtain ⟨r, -, hr⟩ := List.mem_flatMap.mp ht
    exact ⟨r.nul_notMem t hr, r.tokens_ne_nil t hr⟩
  obtain ⟨hrs, hrest⟩ := Fields.lines_append_inj (htokens rs) (htokens rs') h
  exact ⟨congrArg (Lines.lines nul) hrs, hrest⟩

/-- A value of the headers comes from one of the records. -/
theorem mem_of_get?_merge {κ α : Type} [DecidableEq κ] {e : List (κ × α)} {k : κ} {v : α}
    {d : List (κ × α)} (h : Dict.get? (Dict.merge d e) k = some v) : Dict.get? d k = some v ∨ (k, v) ∈ e := by
  induction e generalizing d with
  | nil => exact .inl h
  | cons p e ih =>
      rw [Dict.merge_cons] at h
      rcases ih h with hd | he
      · by_cases hp : p.1 = k
        · subst hp
          rw [Dict.get?_set_self] at hd
          exact .inr (List.mem_cons.mpr (.inl (Prod.ext rfl (Option.some.inj hd).symm)))
        · rw [Dict.get?_set_of_ne hp] at hd
          exact .inl hd
      · exact .inr (List.mem_cons_of_mem _ he)

theorem nul_notMem_header (rs : List StatusRecord) (key : String) :
    point nul ∉ (statusLines rs).header key := by
  unfold StatusLines.header
  cases hget : Dict.get? (statusLines rs).1 (lit key) with
  | none => exact List.not_mem_nil
  | some text =>
      have hmem := (mem_of_get?_merge hget).resolve_left (by simp)
      obtain ⟨r, -, hr⟩ := List.mem_filterMap.mp hmem
      cases r with
      | header key value =>
          obtain rfl : decode value.bytes = text := congrArg Prod.snd (Option.some.inj hr)
          exact fun h => value.nul_notMem ((Surrogates.point_mem_decode_iff (by decide)).mp h)
      | ordinary => cases hr
      | moved => cases hr
      | unmerged => cases hr
      | untracked => cases hr
      | ignored => cases hr

/-- The head is written without NUL. -/
theorem nul_notMem_head (rs : List StatusRecord) : nul ∉ asciiBytes (statusLines rs).headOid := by
  intro h
  obtain ⟨p, hp, heq⟩ := List.mem_map.mp h
  obtain ⟨hmem, hascii⟩ := List.mem_filter.mp hp
  have hval : p.val < 0x80 := of_decide_eq_true hascii
  have hzero : p = point nul := Fin.ext (by
    have hnat := congrArg UInt8.toNat heq
    rw [UInt8.toNat_ofNat', Nat.mod_eq_of_lt (by omega)] at hnat
    exact hnat)
  unfold StatusLines.headOid at hmem
  split_ifs at hmem with hinitial
  · exact List.not_mem_nil hmem
  · exact nul_notMem_header rs _ (hzero ▸ hmem)

/-- The parts for the untracked files, of two lists that name the same paths. -/
theorem untrackedMaterial_inj {sha : Sha256} {us vs : List (CodeText × Bytes)}
    (hpaths : us.map Prod.fst = vs.map Prod.fst)
    (h : us.flatMap (untrackedMaterial sha) = vs.flatMap (untrackedMaterial sha)) :
    us.map (fun u => sha.digest u.2) = vs.map fun v => sha.digest v.2 := by
  induction us generalizing vs with
  | nil =>
      cases vs with
      | nil => rfl
      | cons v vs => cases hpaths
  | cons u us ih =>
      cases vs with
      | nil => cases hpaths
      | cons v vs =>
          obtain ⟨hpath, hrest⟩ := List.cons.inj hpaths
          rw [List.flatMap_cons, List.flatMap_cons] at h
          unfold untrackedMaterial at h
          rw [hpath] at h
          simp only [List.append_assoc, List.cons_append, List.append_cancel_left_eq, List.cons.injEq,
            true_and] at h
          obtain ⟨hdigest, htail⟩ := List.append_inj h (by rw [sha.length_digest, sha.length_digest])
          rw [List.map_cons, List.map_cons, hdigest, ih hrest htail]

/-- **The material is read back**: its parts are found again, whatever names and contents they are made of. -/
theorem material_inj {sha : Sha256} {root : CodeText} {S T : Repository} {o o' : Observed}
    (ho : Observes S root o) (ho' : Observes T root o') (h : o.material sha = o'.material sha) :
    stream StatusRecord.tokens S.records = stream StatusRecord.tokens T.records ∧
      sha.digest o.index = sha.digest o'.index ∧ sha.digest o.worktree = sha.digest o'.worktree ∧
      o.untracked.flatMap (untrackedMaterial sha) = o'.untracked.flatMap (untrackedMaterial sha) := by
  unfold Observed.material labelled at h
  rw [ho.raw, ho'.raw, ho.lines, ho'.lines] at h
  simp only [List.append_assoc, List.cons_append, List.nil_append] at h
  have hhead := (Fields.append_cons_inj (nul_notMem_head _) (nul_notMem_head _) h).2
  rw [List.append_cancel_left_eq, List.cons.injEq, and_iff_right rfl] at hhead
  obtain ⟨hstream, hindex⟩ := stream_append_inj hhead
  rw [List.append_cancel_left_eq, List.cons.injEq, and_iff_right rfl] at hindex
  obtain ⟨hindex, hworktree⟩ := List.append_inj hindex (by rw [sha.length_digest, sha.length_digest])
  rw [List.cons.injEq, and_iff_right rfl, List.append_cancel_left_eq, List.cons.injEq, and_iff_right rfl]
    at hworktree
  obtain ⟨hworktree, huntracked⟩ := List.append_inj hworktree (by rw [sha.length_digest, sha.length_digest])
  exact ⟨hstream, hindex, hworktree, huntracked⟩

/-! ## 4.  Equal fingerprints -/

/-- The same stream names the same untracked paths, as they are rewritten. -/
theorem slashed_untracked {S T : Repository}
    (h : stream StatusRecord.tokens S.records = stream StatusRecord.tokens T.records) :
    statusLines S.records = statusLines T.records ∧
      S.untracked.map (fun p => decode (slashed p.bytes)) =
        T.untracked.map fun p => decode (slashed p.bytes) := by
  have hlines : statusLines S.records = statusLines T.records := by
    have hparse := congrArg parseStatus h
    rw [parseStatus_stream, parseStatus_stream] at hparse
    exact Except.ok.inj hparse
  have hentries := congrArg (fun s : StatusLines =>
    (s.2.filter fun e => e.recordType = .untracked).map StatusEntry.path) hlines
  dsimp only [statusLines] at hentries
  rw [filter_untracked, filter_untracked, List.map_map, List.map_map] at hentries
  exact ⟨hlines, hentries⟩

theorem Observes.paths {S : Repository} {root : CodeText} {o : Observed} (ho : Observes S root o) :
    o.untracked.map Prod.fst = S.untracked.map fun p => decode (slashed p.bytes) := by
  have hfst := congrArg (List.map Prod.fst) ho.untracked
  rw [List.map_map, List.map_map] at hfst
  exact hfst

/-- The contents that are hashed are those that are read. -/
theorem untracked_eq_iff {root : CodeText} {S T : Repository} {o o' : Observed} (ho : Observes S root o)
    (ho' : Observes T root o')
    (h : stream StatusRecord.tokens S.records = stream StatusRecord.tokens T.records) :
    o.untracked = o'.untracked ↔ ∀ p ∈ S.untracked,
      S.host.content root (decode (slashed p.bytes)) = T.host.content root (decode (slashed p.bytes)) := by
  have hsome : Function.Injective fun u : CodeText × Bytes => (u.1, some u.2) := fun u v huv =>
    Prod.ext (Prod.mk.inj huv).1 (Option.some.inj (Prod.mk.inj huv).2)
  have hT := congrArg (List.map fun path => (path, T.host.content root path)) (slashed_untracked h).2
  rw [List.map_map, List.map_map] at hT
  rw [← (List.map_injective_iff.mpr hsome).eq_iff, ho.untracked, ho'.untracked]
  refine Iff.trans (Eq.congr_right hT.symm) (List.map_inj_left.trans ?_)
  exact forall₂_congr fun p _ => ⟨fun heq => (Prod.mk.inj heq).2, fun heq => Prod.ext rfl heq⟩

/-- Lists that name the same paths and have the same values. -/
theorem eq_of_fst_snd {α β γ : Type} {f : β → γ} {us vs : List (α × β)}
    (hfst : us.map Prod.fst = vs.map Prod.fst) (hsnd : us.map (fun u => f u.2) = vs.map fun v => f v.2)
    (hf : ∀ u ∈ us, ∀ v ∈ vs, f u.2 = f v.2 → u.2 = v.2) : us = vs := by
  induction us generalizing vs with
  | nil =>
      cases vs with
      | nil => rfl
      | cons v vs => cases hfst
  | cons u us ih =>
      cases vs with
      | nil => cases hfst
      | cons v vs =>
          obtain ⟨hkey, hkeys⟩ := List.cons.inj hfst
          obtain ⟨hvalue, hvalues⟩ := List.cons.inj hsnd
          have hrest := ih hkeys hvalues fun u hu v hv =>
            hf u (List.mem_cons_of_mem _ hu) v (List.mem_cons_of_mem _ hv)
          rw [hrest, Prod.ext hkey (hf u List.mem_cons_self v List.mem_cons_self hvalue)]

/-- **Equal fingerprints** mean that the same was read. -/
theorem fingerprint_eq_iff {sha : Sha256} {root : CodeText} {maxBytes : Nat} {S T : Repository}
    {s t : StatusSnapshot} (hs : status sha S.host root maxBytes = .ok s)
    (ht : status sha T.host root maxBytes = .ok t)
    (hinj : Set.InjOn sha.digest (S.host.hashed sha root maxBytes ∪ T.host.hashed sha root maxBytes)) :
    s.fingerprint = t.fingerprint ↔ Repository.Agree root S T := by
  obtain ⟨o, hobserve, -, hfp⟩ := status_ok hs
  obtain ⟨o', hobserve', -, hfp'⟩ := status_ok ht
  have ho := observes_of_ok hobserve
  have ho' := observes_of_ok hobserve'
  have hmem : ∀ data ∈ o.hashed sha, ∀ data' ∈ o'.hashed sha,
      sha.digest data = sha.digest data' → data = data' := fun data hdata data' hdata' =>
    hinj (.inl ⟨o, hobserve, hdata⟩) (.inr ⟨o', hobserve', hdata'⟩)
  rw [hfp, hfp', hexdigest_injective.eq_iff]
  constructor
  · intro h
    have hmaterial := hmem _ List.mem_cons_self _ List.mem_cons_self h
    obtain ⟨hstream, hindex, hworktree, huntracked⟩ := material_inj ho ho' hmaterial
    have hindex := hmem _ (.tail _ (.head _)) _ (.tail _ (.head _)) hindex
    have hworktree := hmem _ (.tail _ (.tail _ (.head _))) _ (.tail _ (.tail _ (.head _))) hworktree
    have hpaths := (ho.paths.trans (slashed_untracked hstream).2).trans ho'.paths.symm
    have heq := eq_of_fst_snd hpaths (untrackedMaterial_inj hpaths huntracked) fun u hu v hv =>
      hmem _ (.tail _ (.tail _ (.tail _ (List.mem_map_of_mem hu)))) _
        (.tail _ (.tail _ (.tail _ (List.mem_map_of_mem hv))))
    exact ⟨hstream, by rw [ho.index, ho'.index, hindex], by rw [ho.worktree, ho'.worktree, hworktree],
      (untracked_eq_iff ho ho' hstream).mp heq⟩
  · intro h
    have hindex := Except.ok.inj (ho.index.symm.trans (h.index.trans ho'.index))
    have hworktree := Except.ok.inj (ho.worktree.symm.trans (h.worktree.trans ho'.worktree))
    have huntracked := (untracked_eq_iff ho ho' h.stream).mpr h.contents
    unfold Observed.material
    rw [ho.raw, ho'.raw, ho.lines, ho'.lines, h.stream, (slashed_untracked h.stream).1, hindex, hworktree,
      huntracked]

/-! ## 5.  What a review does not notice -/

theorem slashed_of_notMem {path : Bytes} (h : backslash ∉ path) : slashed path = path :=
  (List.map_congr_left fun b hb => if_neg fun heq : b = backslash => h (heq ▸ hb)).trans (List.map_id _)

theorem Observes.content_some {S : Repository} {root : CodeText} {o : Observed} (ho : Observes S root o)
    {p : PathName} (hp : p ∈ S.untracked) :
    ∃ bytes, S.host.content root (decode (slashed p.bytes)) = some bytes := by
  have hmem := List.mem_map_of_mem (f := fun p : PathName =>
    (decode (slashed p.bytes), S.host.content root (decode (slashed p.bytes)))) hp
  rw [← ho.untracked] at hmem
  obtain ⟨u, -, hu⟩ := List.mem_map.mp hmem
  exact ⟨u.2, (Prod.mk.inj hu).2.symm⟩

/-- An object that is hashed by some bytes is a link or a file. -/
theorem Host.object_of_content {H : Host} {root : CodeText} {path bytes : Bytes}
    (h : H.content root (decode path) = some bytes) :
    H.object root path = some (.link bytes) ∨ H.object root path = some (.file bytes) := by
  obtain ⟨node, hnode, hbytes⟩ := Option.bind_eq_some_iff.mp h
  cases node with
  | link target =>
      obtain rfl := Option.some.inj hbytes
      exact .inl hnode
  | file content =>
      obtain rfl := Option.some.inj hbytes
      exact .inr hnode
  | other => cases hbytes

namespace Repository

theorem Swapped.ne {a b : Option Node} (h : Swapped a b) : a ≠ b := by
  obtain ⟨bytes, ⟨rfl, rfl⟩ | ⟨rfl, rfl⟩⟩ := h
  · exact fun heq => Node.noConfusion (Option.some.inj heq)
  · exact fun heq => Node.noConfusion (Option.some.inj heq)

/-- Where the same was read, what changed is hidden. -/
theorem Agree.unchanged_iff {root : CodeText} {S T : Repository} (h : Agree root S T) {o : Observed}
    (ho : Observes S root o) : Unchanged root S T ↔ ¬ ∃ p ∈ S.untracked, Hidden root S T p := by
  constructor
  · rintro hsame ⟨p, hp, ⟨-, hne⟩ | hswapped⟩
    · exact hne (hsame.objects p hp)
    · exact hswapped.ne (hsame.objects p hp)
  · intro hnone
    refine ⟨congrArg StatusLines.headOid (slashed_untracked h.stream).1, h.stream, h.index, h.worktree,
      fun p hp => ?_⟩
    by_contra hne
    refine hnone ⟨p, hp, ?_⟩
    by_cases hslash : backslash ∈ p.bytes
    · exact .inl ⟨hslash, hne⟩
    · obtain ⟨bytes, hS⟩ := ho.content_some hp
      have hT := (h.contents p hp).symm.trans hS
      rw [slashed_of_notMem hslash] at hS hT
      refine .inr ⟨bytes, ?_⟩
      rcases Host.object_of_content hS with hlink | hfile
      · rcases Host.object_of_content hT with hlink' | hfile'
        · exact absurd (hlink.trans hlink'.symm) hne
        · exact .inl ⟨hlink, hfile'⟩
      · rcases Host.object_of_content hT with hlink' | hfile'
        · exact .inr ⟨hfile, hlink'⟩
        · exact absurd (hfile.trans hfile'.symm) hne

end Repository

theorem assertCurrent_ok {sha : Sha256} {H : Host} {maxBytes : Nat}
    {resolve : CodeText → Except Failure CodeText} {inScope markStale : Bool} {r r' : Review}
    (htarget : r.target ∈ workingTargets)
    (h : (assertCurrent sha H maxBytes resolve inScope markStale r).1 = .ok r') :
    ∃ t, status sha H r.root maxBytes = .ok t ∧ t.headOid = r.headOid ∧
      t.fingerprint = r.statusFingerprint := by
  unfold assertCurrent Review.changed at h
  rw [if_pos htarget] at h
  by_cases hscope : inScope = false
  · rw [if_pos hscope] at h
    cases h
  rw [if_neg hscope] at h
  cases hstatus : status sha H r.root maxBytes with
  | error failure =>
      rw [hstatus] at h
      cases h
  | ok t =>
      rw [hstatus, Except.map] at h
      refine ⟨t, rfl, ?_⟩
      by_contra hne
      have hchanged : (decide (t.headOid ≠ r.headOid) ||
          decide (t.fingerprint ≠ r.statusFingerprint)) = true := by
        simpa [-not_and, not_and_or] using hne
      rw [hchanged] at h
      dsimp only at h
      split_ifs at h

/-- **Freshness**: equal fingerprints mean that nothing changed, and a review of the working tree is accepted
only then, for all pairs of states but those in which the same is read although a hidden change was made. -/
theorem freshness_exact {sha : Sha256} {root : CodeText} {maxBytes : Nat} {S T : Repository}
    {s t : StatusSnapshot} (hs : status sha S.host root maxBytes = .ok s)
    (ht : status sha T.host root maxBytes = .ok t)
    (hinj : Set.InjOn sha.digest (S.host.hashed sha root maxBytes ∪ T.host.hashed sha root maxBytes)) :
    ((s.fingerprint = t.fingerprint → Repository.Unchanged root S T) ∧
      ∀ (r : Review) (resolve : CodeText → Except Failure CodeText) (inScope markStale : Bool),
        r.root = root → r.target ∈ workingTargets → r.statusFingerprint = s.fingerprint →
          (assertCurrent sha T.host maxBytes resolve inScope markStale r).1 = .ok r →
            Repository.Unchanged root S T) ↔
      ¬ (Repository.Agree root S T ∧ ∃ p ∈ S.untracked, Repository.Hidden root S T p) := by
  obtain ⟨o, hobserve, -, -⟩ := status_ok hs
  have ho := observes_of_ok hobserve
  have hfp := fingerprint_eq_iff hs ht hinj
  constructor
  · rintro ⟨hsame, -⟩ ⟨hagree, hhidden⟩
    exact (hagree.unchanged_iff ho).mp (hsame (hfp.mpr hagree)) hhidden
  · intro hnone
    have hsame : s.fingerprint = t.fingerprint → Repository.Unchanged root S T := fun heq =>
      have hagree := hfp.mp heq
      (hagree.unchanged_iff ho).mpr fun hhidden => hnone ⟨hagree, hhidden⟩
    refine ⟨hsame, fun r resolve inScope markStale hroot htarget hreview haccept => hsame ?_⟩
    obtain ⟨t', ht', -, hcurrent⟩ := assertCurrent_ok htarget haccept
    rw [hroot, ht] at ht'
    rw [Except.ok.inj ht', hcurrent, hreview]

/-- A hash: the first 32 bytes, with zeros after them. -/
def firstBytes : Sha256 where
  digest := fun data => (data ++ List.replicate 32 0).take 32
  length_digest := fun data => by simp

/-- A repository at `/` whose only change is an untracked object named `a`. -/
def holding (node : Node) : Repository where
  host := {
    run := fun command =>
      .ok (if command = statusCommand then
        stream StatusRecord.tokens [.untracked ⟨⟨[0x61], by decide⟩, by decide⟩] else [])
    lstat := fun path => if path = lit "/a" then some node else none
    realpath := fun path => path }
  records := [.untracked ⟨⟨[0x61], by decide⟩, by decide⟩]
  prints := rfl

/-- What is observed of it, where it is a link to `x` or a file that holds `x`. -/
def observedA : Observed where
  raw := [0x3F, 0x20, 0x61, nul]
  lines := ([], [⟨lit "a", .untracked, lit "?", lit "?", [], [], [], [], [], [], []⟩])
  index := []
  worktree := []
  untracked := [(lit "a", [0x78])]

theorem observe_holding : (holding (.link [0x78])).host.observe (lit "/") 9 = .ok observedA ∧
    (holding (.file [0x78])).host.observe (lit "/") 9 = .ok observedA := by
  rw [Repository.observe_eq, Repository.observe_eq]
  decide

theorem firstBytes_injOn {node : Node} (hobserve : (holding node).host.observe (lit "/") 9 = .ok observedA)
    {node' : Node} (hobserve' : (holding node').host.observe (lit "/") 9 = .ok observedA) :
    Set.InjOn firstBytes.digest ((holding node).host.hashed firstBytes (lit "/") 9 ∪
      (holding node').host.hashed firstBytes (lit "/") 9) := by
  have hall : ∀ x ∈ observedA.hashed firstBytes, ∀ y ∈ observedA.hashed firstBytes,
      firstBytes.digest x = firstBytes.digest y → x = y := by decide
  have hmem : ∀ x ∈ (holding node).host.hashed firstBytes (lit "/") 9 ∪
      (holding node').host.hashed firstBytes (lit "/") 9, x ∈ observedA.hashed firstBytes := by
    rintro x (⟨o, ho, hx⟩ | ⟨o, ho, hx⟩)
    · rwa [Except.ok.inj (ho.symm.trans hobserve)] at hx
    · rwa [Except.ok.inj (ho.symm.trans hobserve')] at hx
  exact fun x hx y hy => hall x (hmem x hx) y (hmem y hy)

/-- Both have the same status. -/
theorem status_holding : ∃ s, status firstBytes (holding (.link [0x78])).host (lit "/") 9 = .ok s ∧
    status firstBytes (holding (.file [0x78])).host (lit "/") 9 = .ok s := by
  unfold status
  rw [observe_holding.1, observe_holding.2]
  exact ⟨_, rfl, rfl⟩

/-- The theorem of a link that became a file. -/
theorem freshness_holding : ∃ s t, status firstBytes (holding (.link [0x78])).host (lit "/") 9 = .ok s ∧
    status firstBytes (holding (.file [0x78])).host (lit "/") 9 = .ok t ∧
    (((s.fingerprint = t.fingerprint →
        Repository.Unchanged (lit "/") (holding (.link [0x78])) (holding (.file [0x78]))) ∧
      ∀ (r : Review) (resolve : CodeText → Except Failure CodeText) (inScope markStale : Bool),
        r.root = lit "/" → r.target ∈ workingTargets → r.statusFingerprint = s.fingerprint →
          (assertCurrent firstBytes (holding (.file [0x78])).host 9 resolve inScope markStale r).1 = .ok r →
            Repository.Unchanged (lit "/") (holding (.link [0x78])) (holding (.file [0x78]))) ↔
      ¬ (Repository.Agree (lit "/") (holding (.link [0x78])) (holding (.file [0x78])) ∧
        ∃ p ∈ (holding (.link [0x78])).untracked,
          Repository.Hidden (lit "/") (holding (.link [0x78])) (holding (.file [0x78])) p)) := by
  obtain ⟨s, hs, ht⟩ := status_holding
  exact ⟨s, s, hs, ht, freshness_exact hs ht (firstBytes_injOn observe_holding.1 observe_holding.2)⟩

/-- A link to `x` has the fingerprint of a file that holds `x`. -/
theorem link_read_as_file : ¬ ∀ (sha : Sha256) (root : CodeText) (maxBytes : Nat) (S T : Repository)
    (s t : StatusSnapshot), status sha S.host root maxBytes = .ok s →
    status sha T.host root maxBytes = .ok t →
      Set.InjOn sha.digest (S.host.hashed sha root maxBytes ∪ T.host.hashed sha root maxBytes) →
        s.fingerprint = t.fingerprint → Repository.Unchanged root S T := by
  intro h
  obtain ⟨s, hs, ht⟩ := status_holding
  have hsame := h firstBytes (lit "/") 9 _ _ s s hs ht
    (firstBytes_injOn observe_holding.1 observe_holding.2) rfl
  have hobject := hsame.objects ⟨⟨[0x61], by decide⟩, by decide⟩ List.mem_cons_self
  exact absurd hobject (by decide)

end Git
end VariantOne
