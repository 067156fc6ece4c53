import VariantOne.Coding.ReviewEvidence

/-!
# When the panel is faithful

A review of a diff is faithful when every row of the panel shows the lines that the
evidence has for its path, or as many as the limit allows and says that it is truncated.
`faithful_iff_plain` names the evidence for which that is so.  A deleted line that begins
with two minus signs is read as a label (`not_faithful_commentReview`); a tracked file
with too many lines is cut and does not say so.

The equivalence is put together from two sides: plain evidence is shown because reading undoes writing
(`ReviewPanel`), and evidence that is shown is plain because no row of the panel holds a marker or a
quoted name, whatever was read.
-/

namespace VariantOne
namespace Coding

/-- A review that was made of a diff of text files: what Git says of them, and the files
that it does not track.  The paths of a review are unique in its table. -/
structure ReviewedDiff where
  store : ArtifactStore
  root : Str
  target : String
  suppressBlank : Bool
  files : List FilePatch
  records : List RawRecord
  untracked : List (Str × Bytes)
  named : ∀ f ∈ files, ∃ r ∈ records, r.name = f.name
  textual : ∀ r ∈ records, r.binary = false
  tracked : ∀ r ∈ records, r.status ∈ ["A", "C", "D", "M", "R", "T"]
  unique : ((observeDiff store target records (patch suppressBlank files) untracked).files.map
    (·.path)).Nodup

/-- The stored content of a file is read instead of the patch. -/
def OwnEvidence (review : ReviewRecord) (item : ReviewFile) : Prop :=
  (if item.status = "" then "M" else item.status).toUpper = "?" ∧ item.patchRef ≠ "" ∧
    item.patchRef ≠ review.patchRef

theorem projectFile_own (store : ArtifactStore) {review : ReviewRecord}
    (patched : List (Str × ReviewHunk)) {item : ReviewFile} (h : OwnEvidence review item) :
    (projectFile store review patched item).hunks =
        (if (projectContent (store.read item.patchRef)).1 ≠ [] then
          (projectContent (store.read item.patchRef)).1 else hunksOf patched item.path) ∧
      (projectFile store review patched item).truncated =
        (item.binary || (projectContent (store.read item.patchRef)).2) := by
  unfold OwnEvidence at h
  constructor
  · simp only [projectFile, h, true_and, ne_eq, not_false_eq_true]
  · simp only [projectFile, h, ne_eq, not_false_eq_true, and_self, decide_true, Bool.true_and]

theorem projectFile_other (store : ArtifactStore) {review : ReviewRecord}
    (patched : List (Str × ReviewHunk)) {item : ReviewFile} (h : ¬ OwnEvidence review item) :
    (projectFile store review patched item).hunks = hunksOf patched item.path ∧
      (projectFile store review patched item).truncated = item.binary := by
  unfold OwnEvidence at h
  constructor
  · exact if_neg fun hown => h hown.1
  · show (item.binary || (decide _ && _)) = item.binary
    rw [decide_eq_false h, Bool.false_and, Bool.or_false]

namespace ReviewedDiff

variable (r : ReviewedDiff)

def payload : Bytes := patch r.suppressBlank r.files

def review : ReviewRecord :=
  startReview r.root (observeDiff r.store r.target r.records r.payload r.untracked)

/-- The rows of the panel. -/
def rows : List PanelRow := projectFiles r.store r.review

/-- The untracked files of the review. -/
def listed : List (Str × Bytes) := listedFiles r.target r.records r.untracked

/-- What the evidence says of a path: the lines of each of its files in the patch, and the
lines of the file that is stored for it. -/
def said (path : Str) : List (List HunkLine) :=
  (r.files.filter fun f => normalPath f.name = path).map FilePatch.numbered ++
    (r.listed.filter fun u => u.1 = path).map fun u => addedLines 1 (fileLines u.2 [])

def saidLines (path : Str) : List HunkLine := (r.said path).flatten

/-- What is left of it by the limit of the projection. -/
def limitedLines (path : Str) : List HunkLine :=
  ((r.said path).map (List.take maxProjectedHunkLines)).flatten

/-- The row shows what the evidence says, up to the limit, and says so where that is less. -/
def Shows (row : PanelRow) : Prop :=
  row.hunks.flatMap (·.lines) = r.limitedLines row.item.path ∧
    (r.limitedLines row.item.path ≠ r.saidLines row.item.path → row.truncated = true)

/-- **The panel shows the whole patch or says so.** -/
def Faithful : Prop := ∀ row ∈ r.rows, r.Shows row

/-- No row of the patch that names a file or begins a hunk is broken. -/
def Uncut : Prop := ∀ f ∈ r.files, f.Uncut

/-- The evidence that the panel can show. -/
structure Plain : Prop where
  /-- No line of a patched file has a character inside that ends a line elsewhere. -/
  whole : ∀ f ∈ r.files, f.Whole
  /-- No deleted line begins with two minus signs, no added one with two plus signs. -/
  quiet : ∀ f ∈ r.files, f.Quiet
  /-- No empty unchanged line is shown without its blank. -/
  blanks : ∀ f ∈ r.files, ∀ h ∈ f.hunks, ∀ l ∈ h.lines, ¬ l.hidden r.suppressBlank
  /-- A file with changed lines has a name that Git does not quote and no blank ends. -/
  names : ∀ f ∈ r.files, f.hunks ≠ [] → PlainName f.name
  /-- No file of the patch has more lines than are shown. -/
  short : ∀ f ∈ r.files, f.numbered.length ≤ maxProjectedHunkLines
  /-- No untracked file is the patch itself. -/
  apart : ∀ u ∈ r.listed, u.2 = r.payload → r.payload = []
  /-- No line that is shown of an untracked file is broken. -/
  stored : ∀ u ∈ r.listed, ∀ l ∈ (fileLines u.2 []).take maxProjectedHunkLines,
    Unbroken (lineText l.1 l.2)

/-! ## 1.  The rows -/

/-- The hunks that `project_files` reads from the patch. -/
def patched : List (Str × ReviewHunk) := patchHunks r.payload

theorem patched_eq : (if r.review.patchRef = "" then []
    else patchHunks (r.store.read r.review.patchRef)) = r.patched := by
  show (if (if r.payload = [] then "" else r.store.ref r.payload) = "" then [] else
    patchHunks (r.store.read (if r.payload = [] then "" else r.store.ref r.payload))) = _
  by_cases hpayload : r.payload = []
  · rw [if_pos hpayload, if_pos rfl, patched, hpayload]
    rfl
  · rw [if_neg hpayload, if_neg (r.store.ref_ne _), r.store.read_ref]
    rfl

/-- The row of a file. -/
def rowOf (item : DiffFile) : PanelRow :=
  projectFile r.store r.review r.patched (item.reviewFile r.review.patchRef)

theorem rows_eq : r.rows = (r.records.map fun record => r.rowOf record.file) ++
    r.listed.map fun u => r.rowOf (untrackedFile r.store u.1 u.2) := by
  unfold rows projectFiles
  simp only [patched_eq]
  show List.map _ (List.map _ (List.map _ _ ++ List.map _ _)) = _
  simp only [List.map_append, List.map_map]
  rfl

theorem mem_rows {row : PanelRow} (h : row ∈ r.rows) :
    (∃ record ∈ r.records, row = r.rowOf record.file) ∨
      ∃ u ∈ r.listed, row = r.rowOf (untrackedFile r.store u.1 u.2) := by
  rw [rows_eq] at h
  rcases List.mem_append.mp h with h | h
  · obtain ⟨record, hrecord, rfl⟩ := List.mem_map.mp h
    exact .inl ⟨record, hrecord, rfl⟩
  · obtain ⟨u, hu, rfl⟩ := List.mem_map.mp h
    exact .inr ⟨u, hu, rfl⟩

theorem rowOf_mem {record : RawRecord} (h : record ∈ r.records) : r.rowOf record.file ∈ r.rows := by
  rw [rows_eq]
  exact List.mem_append_left _ (List.mem_map_of_mem h)

theorem rowOf_untracked_mem {u : Str × Bytes} (h : u ∈ r.listed) :
    r.rowOf (untrackedFile r.store u.1 u.2) ∈ r.rows := by
  rw [rows_eq]
  exact List.mem_append_right _ (List.mem_map_of_mem h)

/-- A tracked file shows the hunks of its path. -/
theorem rowOf_record {record : RawRecord} (h : record ∈ r.records) :
    (r.rowOf record.file).hunks = hunksOf r.patched (normalPath record.name) ∧
      (r.rowOf record.file).truncated = false := by
  have hother : ¬ OwnEvidence r.review (record.file.reviewFile r.review.patchRef) := by
    have hstatus : (if record.status = "" then "M" else record.status).toUpper ≠ "?" := by
      have hmem := r.tracked record h
      simp only [List.mem_cons, List.not_mem_nil, or_false] at hmem
      rcases hmem with he | he | he | he | he | he <;> rw [he] <;> decide +kernel
    exact fun hown => hstatus hown.1
  obtain ⟨hhunks, htruncated⟩ := projectFile_other r.store r.patched hother
  exact ⟨hhunks, htruncated.trans (r.textual record h)⟩

/-- The file of an untracked entry, in the review. -/
def untrackedItem (u : Str × Bytes) : ReviewFile :=
  (untrackedFile r.store u.1 u.2).reviewFile r.review.patchRef

theorem patchRef_untrackedItem (u : Str × Bytes) :
    (r.untrackedItem u).patchRef = r.store.ref u.2 := if_neg (r.store.ref_ne _)

/-- The stored content of a file is its own evidence unless it is the patch. -/
theorem ownEvidence_iff {u : Str × Bytes} :
    OwnEvidence r.review (r.untrackedItem u) ↔ (u.2 = r.payload → r.payload = []) := by
  have hupper : ("?" : String).toUpper = "?" := by decide +kernel
  have hne := r.store.ref_ne u.2
  have hpatch : r.review.patchRef = if r.payload = [] then "" else r.store.ref r.payload := rfl
  unfold OwnEvidence
  rw [patchRef_untrackedItem, hpatch]
  by_cases hpayload : r.payload = []
  · rw [if_pos hpayload]
    exact ⟨fun _ _ => hpayload, fun _ => ⟨hupper, hne, hne⟩⟩
  · rw [if_neg hpayload]
    constructor
    · exact fun hown hsame => absurd (congrArg r.store.ref hsame) hown.2.2
    · refine fun hapart => ⟨hupper, hne, fun href => ?_⟩
      have hread := congrArg r.store.read href
      rw [r.store.read_ref, r.store.read_ref] at hread
      exact hpayload (hapart hread)

theorem rowOf_own {u : Str × Bytes} (h : u.2 = r.payload → r.payload = []) :
    (r.rowOf (untrackedFile r.store u.1 u.2)).hunks =
        (if (projectContent u.2).1 ≠ [] then (projectContent u.2).1 else hunksOf r.patched u.1) ∧
      (r.rowOf (untrackedFile r.store u.1 u.2)).truncated = (projectContent u.2).2 := by
  have hrow := projectFile_own r.store r.patched (r.ownEvidence_iff.mpr h)
  rw [patchRef_untrackedItem, r.store.read_ref] at hrow
  exact hrow

theorem rowOf_patch {u : Str × Bytes} (h : ¬ (u.2 = r.payload → r.payload = [])) :
    (r.rowOf (untrackedFile r.store u.1 u.2)).hunks = hunksOf r.patched u.1 :=
  (projectFile_other r.store r.patched
    fun hown => h (r.ownEvidence_iff.mp hown)).1

/-! ## 2.  What is said of a path -/

variable {r}

theorem path_of_listed {u : Str × Bytes} (hu : u ∈ r.listed) :
    ∀ record ∈ r.records, normalPath record.name ≠ u.1 := by
  unfold listed listedFiles at hu
  split at hu
  · intro record hrecord he
    have hmem := (List.mem_filter.mp hu).2
    rw [decide_eq_true_eq] at hmem
    exact hmem (he ▸ List.mem_map_of_mem hrecord)
  · exact absurd hu List.not_mem_nil

theorem filter_map_flatten {α β : Type} (xs : List α) (q : α → Prop) [DecidablePred q]
    (g : α → List β) :
    ((xs.filter fun x => q x).map g).flatten = xs.flatMap fun x => if q x then g x else [] := by
  induction xs with
  | nil => rfl
  | cons x xs ih =>
      rw [List.flatMap_cons, ← ih]
      by_cases hx : q x
      · rw [List.filter_cons_of_pos (by simpa using hx), List.map_cons, List.flatten_cons,
          if_pos hx]
      · rw [List.filter_cons_of_neg (by simpa using hx), if_neg hx, List.nil_append]

/-- What the patch says of a tracked path. -/
theorem said_record {record : RawRecord} (h : record ∈ r.records) :
    r.said (normalPath record.name) =
      (r.files.filter fun f => normalPath f.name = normalPath record.name).map
        FilePatch.numbered := by
  have hnone : (r.listed.filter fun u => u.1 = normalPath record.name) = [] := by
    rw [List.filter_eq_nil_iff]
    intro u hu he
    rw [decide_eq_true_eq] at he
    exact path_of_listed hu record h he.symm
  rw [said, hnone, List.map_nil, List.append_nil]

theorem saidLines_record {record : RawRecord} (h : record ∈ r.records) :
    r.saidLines (normalPath record.name) = r.files.flatMap fun f =>
      if normalPath f.name = normalPath record.name then f.numbered else [] := by
  rw [saidLines, said_record h, filter_map_flatten]

theorem limitedLines_record {record : RawRecord} (h : record ∈ r.records) :
    r.limitedLines (normalPath record.name) = r.files.flatMap fun f =>
      if normalPath f.name = normalPath record.name then
        f.numbered.take maxProjectedHunkLines else [] := by
  rw [limitedLines, said_record h, List.map_map, filter_map_flatten]
  rfl

/-- What the stored content says of an untracked path. -/
theorem said_listed {u : Str × Bytes} (hu : u ∈ r.listed) :
    r.said u.1 = [addedLines 1 (fileLines u.2 [])] := by
  have hfiles : (r.files.filter fun f => normalPath f.name = u.1) = [] := by
    rw [List.filter_eq_nil_iff]
    intro f hf he
    rw [decide_eq_true_eq] at he
    obtain ⟨record, hrecord, hname⟩ := r.named f hf
    exact path_of_listed hu record hrecord (by rw [hname, he])
  have hpaths : (r.listed.map (·.1)).Nodup := by
    have hunique := r.unique
    have hshape : (observeDiff r.store r.target r.records (patch r.suppressBlank r.files)
        r.untracked).files.map (·.path) =
        (r.records.map fun record => record.file.path) ++ r.listed.map (·.1) := by
      show List.map _ (List.map _ _ ++ List.map _ _) = _
      simp only [List.map_append, List.map_map]
      rfl
    rw [hshape] at hunique
    exact (List.nodup_append.mp hunique).2.1
  have hsingle : (r.listed.filter fun v => v.1 = u.1) = [u] := by
    obtain ⟨before, after, hsplit⟩ := List.append_of_mem hu
    rw [hsplit, List.map_append, List.map_cons] at hpaths
    have hbefore : ∀ v ∈ before, v.1 ≠ u.1 := by
      intro v hv he
      exact (List.nodup_append.mp hpaths).2.2 v.1 (List.mem_map_of_mem hv) u.1
        List.mem_cons_self he
    have hafter : ∀ v ∈ after, v.1 ≠ u.1 := by
      intro v hv he
      exact (List.nodup_cons.mp (List.nodup_append.mp hpaths).2.1).1
        (he ▸ List.mem_map_of_mem hv)
    rw [hsplit, List.filter_append,
      List.filter_eq_nil_iff.mpr fun v hv => by simpa using hbefore v hv,
      List.filter_cons_of_pos (by simp),
      List.filter_eq_nil_iff.mpr fun v hv => by simpa using hafter v hv, List.nil_append]
  rw [said, hfiles, hsingle]
  rfl

theorem limitedLines_listed {u : Str × Bytes} (hu : u ∈ r.listed) :
    r.limitedLines u.1 =
      projectLines 1 (((fileLines u.2 []).take maxProjectedHunkLines).map
        fun l => lineText l.1 l.2) := by
  rw [limitedLines, said_listed hu, List.map_singleton, List.flatten_singleton, take_addedLines,
    addedLines_eq]

theorem saidLines_listed {u : Str × Bytes} (hu : u ∈ r.listed) :
    r.saidLines u.1 = addedLines 1 (fileLines u.2 []) := by
  rw [saidLines, said_listed hu, List.flatten_singleton]

/-! ## 3.  What is shown of a path -/

/-- The lines that the patch shows for a path. -/
def shownLines (r : ReviewedDiff) (path : Str) : List HunkLine :=
  (hunksOf r.patched path).flatMap (·.lines)

end ReviewedDiff

theorem hunksOf_append (hs ks : List (Str × ReviewHunk)) (path : Str) :
    hunksOf (hs ++ ks) path = hunksOf hs path ++ hunksOf ks path := by
  unfold hunksOf
  rw [List.filter_append, List.map_append]

theorem hunksOf_flatMap {α : Type} (xs : List α) (g : α → List (Str × ReviewHunk)) (path : Str) :
    hunksOf (xs.flatMap g) path = xs.flatMap fun x => hunksOf (g x) path := by
  induction xs with
  | nil => rfl
  | cons x xs ih => rw [List.flatMap_cons, List.flatMap_cons, hunksOf_append, ih]

theorem fst_of_mem_shownHunks {b : Bool} {path : Str} {rendered : Nat} {hs : List PatchHunk}
    {h : Str × ReviewHunk} (hh : h ∈ shownHunks b path rendered hs) : h.1 = path := by
  induction hs generalizing rendered with
  | nil => exact absurd hh List.not_mem_nil
  | cons g hs ih =>
      rw [shownHunks] at hh
      rcases List.mem_cons.mp hh with rfl | hh
      · rfl
      · exact ih hh

/-- The lines that a file shows for a path. -/
theorem hunksOf_shown {b : Bool} {f : FilePatch} {path : Str} :
    (hunksOf (f.shown b) path).flatMap (·.lines) =
      if f.key = path ∧ path ≠ [] then shownOf b path 0 f.hunks else [] := by
  unfold FilePatch.shown
  by_cases hkey : f.key = path ∧ path ≠ []
  · rw [if_pos hkey, if_neg (by rw [hkey.1]; exact hkey.2), hkey.1]
    have hall : (shownHunks b path 0 f.hunks).filter (·.1 = path) = shownHunks b path 0 f.hunks := by
      rw [List.filter_eq_self]
      exact fun h hh => decide_eq_true (fst_of_mem_shownHunks hh)
    rw [hunksOf, hall, List.flatMap_map]
    rfl
  · rw [if_neg hkey]
    split
    · rfl
    · rename_i hne
      have hnone : (shownHunks b f.key 0 f.hunks).filter (·.1 = path) = [] := by
        rw [List.filter_eq_nil_iff]
        intro h hh he
        rw [decide_eq_true_eq] at he
        have hsame := (fst_of_mem_shownHunks hh).symm.trans he
        exact hkey ⟨hsame, hsame ▸ hne⟩
      rw [hunksOf, hnone]
      rfl

namespace ReviewedDiff

variable {r : ReviewedDiff}

/-- **What is shown for a path**: the lines of the files under its key. -/
theorem shownLines_eq (hcut : r.Uncut) (hwhole : ∀ f ∈ r.files, f.Whole)
    (hquiet : ∀ f ∈ r.files, f.Quiet) (path : Str) :
    r.shownLines path = r.files.flatMap fun f =>
      if f.key = path ∧ path ≠ [] then shownOf r.suppressBlank path 0 f.hunks else [] := by
  rw [shownLines, patched, payload, patchHunks_patch hcut hwhole hquiet, hunksOf_flatMap,
    List.flatMap_assoc]
  exact List.flatMap_congr fun f _ => hunksOf_shown

theorem normalPath_ne_nil (f : FilePatch) : normalPath f.name ≠ [] :=
  fun he => f.relative.1 (List.map_eq_nil_iff.mp he)

theorem numbered_eq_nil_iff (f : FilePatch) : f.numbered = [] ↔ f.hunks = [] := by
  constructor
  · intro h
    by_contra hne
    obtain ⟨g, hs, hcons⟩ := List.exists_cons_of_ne_nil hne
    rw [FilePatch.numbered, hcons, List.flatMap_cons] at h
    have hlines := congrArg List.length (List.append_eq_nil_iff.mp h).1
    rw [length_numberLines] at hlines
    exact g.nonempty (List.eq_nil_of_length_eq_zero hlines)
  · intro h
    rw [FilePatch.numbered, h]
    rfl

/-- A file is shown for its path when its name is plain. -/
theorem shownLines_of_names (hcut : r.Uncut) (hwhole : ∀ f ∈ r.files, f.Whole)
    (hquiet : ∀ f ∈ r.files, f.Quiet) (hnames : ∀ f ∈ r.files, f.hunks ≠ [] → PlainName f.name)
    (path : Str) :
    r.shownLines path = r.files.flatMap fun f =>
      if normalPath f.name = path then shownOf r.suppressBlank path 0 f.hunks else [] := by
  rw [shownLines_eq hcut hwhole hquiet]
  refine List.flatMap_congr fun f hf => ?_
  by_cases hunks : f.hunks = []
  · rw [hunks]
    split <;> split <;> rfl
  · rw [key_of_plainName (hnames f hf hunks)]
    by_cases hpath : normalPath f.name = path
    · rw [if_pos hpath, if_pos ⟨hpath, hpath ▸ normalPath_ne_nil f⟩]
    · rw [if_neg hpath, if_neg fun h => hpath h.1]

/-- Nothing is shown for a path that the patch does not have. -/
theorem shownLines_listed (hcut : r.Uncut) (hwhole : ∀ f ∈ r.files, f.Whole)
    (hquiet : ∀ f ∈ r.files, f.Quiet) (hnames : ∀ f ∈ r.files, f.hunks ≠ [] → PlainName f.name)
    {u : Str × Bytes} (hu : u ∈ r.listed) : r.shownLines u.1 = [] := by
  rw [shownLines_of_names hcut hwhole hquiet hnames, List.flatMap_eq_nil_iff]
  intro f hf
  obtain ⟨record, hrecord, hname⟩ := r.named f hf
  exact if_neg fun he => path_of_listed hu record hrecord (by rw [hname, he])

/-! ## 4.  Plain evidence is shown -/

theorem shows_record (hcut : r.Uncut) (h : r.Plain) {record : RawRecord}
    (hrecord : record ∈ r.records) : r.Shows (r.rowOf record.file) := by
  have hlines : r.shownLines (normalPath record.name) =
      r.saidLines (normalPath record.name) := by
    rw [shownLines_of_names hcut h.whole h.quiet h.names, saidLines_record hrecord]
    refine List.flatMap_congr fun f hf => ?_
    split
    · refine shownOf_of_room ?_ (h.blanks f hf)
      rw [Nat.zero_add]
      exact h.short f hf
    · rfl
  have hlimit : r.limitedLines (normalPath record.name) =
      r.saidLines (normalPath record.name) := by
    rw [limitedLines_record hrecord, saidLines_record hrecord]
    refine List.flatMap_congr fun f hf => ?_
    rw [List.take_of_length_le (h.short f hf)]
  constructor
  · show (r.rowOf record.file).hunks.flatMap (·.lines) = r.limitedLines (normalPath record.name)
    rw [(r.rowOf_record hrecord).1, hlimit]
    exact hlines
  · exact fun hne => absurd hlimit hne

theorem take_append_of_full {α : Type} {front rest : List α} {n : Nat} (hfront : front.length ≤ n)
    (h : front.length < n → rest = []) : (front ++ rest).take n = front := by
  by_cases hlt : front.length < n
  · rw [h hlt, List.append_nil, List.take_of_length_le hfront]
  · have hlen : front.length = n := Nat.le_antisymm hfront (Nat.not_lt.mp hlt)
    rw [← hlen, List.take_left]

/-- The lines that are shown of a stored file. -/
theorem take_splitLines {content : Bytes}
    (h : ∀ l ∈ (fileLines content []).take maxProjectedHunkLines, Unbroken (lineText l.1 l.2)) :
    (splitLines (Utf8.decode content) []).take maxProjectedHunkLines =
      ((fileLines content []).take maxProjectedHunkLines).map fun l => lineText l.1 l.2 := by
  rw [splitLines_front h]
  refine take_append_of_full ?_ ?_
  · rw [List.length_map]
    exact List.length_take_le _ _
  · intro hlt
    rw [List.length_map, List.length_take] at hlt
    rw [List.drop_of_length_le (by omega)]
    rfl

/-- A stored file that has more lines than are shown is split into more lines than are shown. -/
theorem length_splitLines_lt {content : Bytes}
    (h : ∀ l ∈ (fileLines content []).take maxProjectedHunkLines, Unbroken (lineText l.1 l.2))
    (hlong : maxProjectedHunkLines < (fileLines content []).length) :
    maxProjectedHunkLines < (splitLines (Utf8.decode content) []).length := by
  have hrest : 0 < (((fileLines content []).drop maxProjectedHunkLines).flatMap
      contentPieces).length := by
    rw [List.length_pos_iff]
    intro hnil
    have hdrop : (fileLines content []).drop maxProjectedHunkLines ≠ [] := by
      rw [← List.length_pos_iff, List.length_drop]
      omega
    obtain ⟨l, ls, hcons⟩ := List.exists_cons_of_ne_nil hdrop
    have hl : l ∈ fileLines content [] :=
      List.mem_of_mem_drop (hcons ▸ List.mem_cons_self (a := l) (l := ls))
    rw [hcons, List.flatMap_cons] at hnil
    exact contentPieces_ne_nil hl (List.append_eq_nil_iff.mp hnil).1
  rw [splitLines_front h, List.length_append, List.length_map, List.length_take]
  omega

/-- The lines of the stored content of a file. -/
theorem lines_projectContent (content : Bytes) :
    (projectContent content).1.flatMap (·.lines) =
      projectLines 1 ((splitLines (Utf8.decode content) []).take maxProjectedHunkLines) := by
  unfold projectContent
  simp only
  split
  · rename_i h
    rw [h]
    rfl
  · exact List.append_nil _

theorem shows_listed (hcut : r.Uncut) (h : r.Plain) {u : Str × Bytes} (hu : u ∈ r.listed) :
    r.Shows (r.rowOf (untrackedFile r.store u.1 u.2)) := by
  obtain ⟨hhunks, htruncated⟩ := r.rowOf_own (h.apart u hu)
  have htake := take_splitLines (h.stored u hu)
  constructor
  · show (r.rowOf (untrackedFile r.store u.1 u.2)).hunks.flatMap (·.lines) = r.limitedLines u.1
    rw [hhunks, limitedLines_listed hu, ← htake, ← lines_projectContent]
    split
    · rfl
    · rename_i hempty
      rw [not_not.mp hempty]
      exact shownLines_listed hcut h.whole h.quiet h.names hu
  · show r.limitedLines u.1 ≠ r.saidLines u.1 → _
    intro hne
    rw [htruncated]
    have hlong : maxProjectedHunkLines < (fileLines u.2 []).length := by
      by_contra hshort
      refine hne ?_
      rw [limitedLines_listed hu, saidLines_listed hu, addedLines_eq,
        List.take_of_length_le (Nat.not_lt.mp hshort)]
    have hsplit := length_splitLines_lt (h.stored u hu) hlong
    unfold projectContent
    simp only [length_projectLines, List.length_take, decide_eq_true_eq]
    omega

/-! ## 5.  What is shown is plain -/

/-- A tracked file is shown whole, for nothing says that it is not. -/
theorem shownLines_of_faithful (h : r.Faithful) {record : RawRecord} (hrecord : record ∈ r.records) :
    r.shownLines (normalPath record.name) = r.saidLines (normalPath record.name) ∧
      r.limitedLines (normalPath record.name) = r.saidLines (normalPath record.name) := by
  obtain ⟨hlines, hwhy⟩ := h _ (r.rowOf_mem hrecord)
  obtain ⟨hhunks, htruncated⟩ := r.rowOf_record hrecord
  have hlimit : r.limitedLines (normalPath record.name) =
      r.saidLines (normalPath record.name) := by
    by_contra hne
    rw [hwhy hne] at htruncated
    exact Bool.noConfusion htruncated
  rw [hhunks] at hlines
  exact ⟨hlines.trans hlimit, hlimit⟩

theorem shown_mem_numberLines {l : PatchLine} {ls : List PatchLine} (h : l ∈ ls)
    (oldNo newNo : Nat) : ∃ o n, l.shown o n ∈ numberLines oldNo newNo ls := by
  induction ls generalizing oldNo newNo with
  | nil => exact absurd h List.not_mem_nil
  | cons k ls ih =>
      rw [numberLines]
      rcases List.mem_cons.mp h with rfl | h
      · exact ⟨oldNo, newNo, List.mem_cons_self⟩
      · obtain ⟨o, n, hmem⟩ := ih h (k.kind.nextOld oldNo) (k.kind.nextNew newNo)
        exact ⟨o, n, List.mem_cons_of_mem _ hmem⟩

theorem numbered_subset {f : FilePatch} (hf : f ∈ r.files) {record : RawRecord}
    (hrecord : record ∈ r.records) (hname : record.name = f.name) {l : HunkLine}
    (hl : l ∈ f.numbered) : l ∈ r.saidLines (normalPath record.name) := by
  rw [saidLines_record hrecord, List.mem_flatMap]
  refine ⟨f, hf, ?_⟩
  rw [if_pos (by rw [hname])]
  exact hl

/-- Every line of a faithful panel can be shown. -/
theorem showable_of_faithful (h : r.Faithful) {f : FilePatch} (hf : f ∈ r.files) {g : PatchHunk}
    (hg : g ∈ f.hunks) {l : PatchLine} (hl : l ∈ g.lines) :
    Unbroken l.text ∧ l.Quiet := by
  obtain ⟨record, hrecord, hname⟩ := r.named f hf
  obtain ⟨o, n, hmem⟩ := shown_mem_numberLines hl g.oldStart g.newStart
  have hnumbered : l.shown o n ∈ f.numbered := List.mem_flatMap.mpr ⟨g, hg, hmem⟩
  have hshown := numbered_subset hf hrecord hname hnumbered
  rw [← (shownLines_of_faithful h hrecord).1, shownLines, List.mem_flatMap] at hshown
  obtain ⟨k, hk, hline⟩ := hshown
  obtain ⟨pair, hpair, rfl⟩ := List.mem_map.mp hk
  have hshowable := showable_patchHunks (List.mem_of_mem_filter hpair) hline
  exact ⟨hshowable.whole, hshowable.add, hshowable.del⟩

/-- The path of a file with changed lines is the key of some file. -/
theorem exists_key (hcut : r.Uncut) (h : r.Faithful) {f : FilePatch} (hf : f ∈ r.files)
    (hunks : f.hunks ≠ []) : ∃ g ∈ r.files, g.hunks ≠ [] ∧ g.key = normalPath f.name := by
  obtain ⟨record, hrecord, hname⟩ := r.named f hf
  obtain ⟨l, ls, hcons⟩ := List.exists_cons_of_ne_nil (mt (numbered_eq_nil_iff f).mp hunks)
  have hmem := numbered_subset hf hrecord hname (hcons ▸ List.mem_cons_self (a := l) (l := ls))
  rw [← (shownLines_of_faithful h hrecord).1, shownLines_eq hcut
    (fun f hf g hg l hl => (showable_of_faithful h hf hg hl).1)
    (fun f hf g hg l hl => (showable_of_faithful h hf hg hl).2), List.mem_flatMap] at hmem
  obtain ⟨g, hg, hl⟩ := hmem
  split at hl
  · rename_i hkey
    refine ⟨g, hg, fun hnil => ?_, by rw [hkey.1, hname]⟩
    rw [hnil] at hl
    exact absurd hl List.not_mem_nil
  · exact absurd hl List.not_mem_nil

/-- Files of one path have one name. -/
theorem name_eq_of_path {f g : FilePatch} (hf : f ∈ r.files) (hg : g ∈ r.files)
    (h : normalPath f.name = normalPath g.name) : f.name = g.name := by
  obtain ⟨record, hrecord, hname⟩ := r.named f hf
  obtain ⟨record', hrecord', hname'⟩ := r.named g hg
  have hnodup : (r.records.map fun record => record.file.path).Nodup := by
    have hunique := r.unique
    rw [observeDiff, List.map_append, List.map_map] at hunique
    exact (List.nodup_append.mp hunique).1
  have hsame : record = record' := by
    refine List.inj_on_of_nodup_map hnodup hrecord hrecord' ?_
    show normalPath record.name = normalPath record'.name
    rw [hname, hname', h]
  rw [← hname, ← hname', hsame]

/-- **A faithful panel has plain names**: a key is never quoted, and no blank ends it. -/
theorem names_of_faithful (hcut : r.Uncut) (h : r.Faithful) :
    ∀ f ∈ r.files, f.hunks ≠ [] → PlainName f.name := by
  have hkey : ∀ f ∈ r.files, f.hunks ≠ [] → ∃ g ∈ r.files, g.hunks ≠ [] ∧
      g.name.any needsQuote = false ∧ g.key = normalPath f.name := by
    intro f hf hunks
    obtain ⟨g, hg, hghunks, hgkey⟩ := exists_key hcut h hf hunks
    refine ⟨g, hg, hghunks, ?_, hgkey⟩
    rw [Bool.eq_false_iff]
    intro hquote
    exact backslash_notMem_normalPath f.name (hgkey ▸ backslash_mem_key hquote)
  intro f hf hunks
  obtain ⟨g, hg, hghunks, hquote, hgkey⟩ := hkey f hf hunks
  have hplain : PlainName g.name := by
    refine ⟨hquote, ?_⟩
    obtain ⟨g', -, -, hquote', hkey'⟩ := hkey g hg hghunks
    have hstrip := rdropWhile_key g' hquote'
    rw [hkey', normalPath_of_unquoted hquote] at hstrip
    exact hstrip
  have hpath : normalPath f.name = normalPath g.name := by
    rw [← hgkey, key_of_plainName hplain]
  rw [name_eq_of_path hf hg hpath]
  exact hplain

theorem short_of_faithful (h : r.Faithful) :
    ∀ f ∈ r.files, f.numbered.length ≤ maxProjectedHunkLines := by
  intro f hf
  obtain ⟨record, hrecord, hname⟩ := r.named f hf
  have hlimit := (shownLines_of_faithful h hrecord).2
  rw [limitedLines_record hrecord, saidLines_record hrecord] at hlimit
  have heq := eq_of_flatMap_eq (fun g _ => by split <;> simp) hlimit f hf
  rw [if_pos (by rw [hname]), if_pos (by rw [hname])] at heq
  exact List.take_eq_self_iff f.numbered |>.mp heq

theorem blanks_of_faithful (hcut : r.Uncut) (h : r.Faithful) :
    ∀ f ∈ r.files, ∀ g ∈ f.hunks, ∀ l ∈ g.lines, ¬ l.hidden r.suppressBlank := by
  intro f hf
  obtain ⟨record, hrecord, hname⟩ := r.named f hf
  have hshown := (shownLines_of_faithful h hrecord).1
  rw [shownLines_of_names hcut (fun f hf g hg l hl => (showable_of_faithful h hf hg hl).1)
    (fun f hf g hg l hl => (showable_of_faithful h hf hg hl).2) (names_of_faithful hcut h),
    saidLines_record hrecord] at hshown
  have heq := eq_of_flatMap_eq (fun g _ => by
    split
    · exact length_shownOf_le _ _ _ _
    · exact Nat.le_refl _) hshown f hf
  rw [if_pos (by rw [hname]), if_pos (by rw [hname])] at heq
  exact not_hidden_of_length_shownOf (congrArg List.length heq)

theorem fileLines_of_projectLines {content : Bytes}
    (h : projectLines 1 (((fileLines content []).take maxProjectedHunkLines).map
      fun l => lineText l.1 l.2) = []) : content = [] := by
  have hlen := congrArg List.length h
  rw [length_projectLines, List.length_map, List.length_take] at hlen
  have hlimit : maxProjectedHunkLines = 500 := rfl
  refine (fileLines_eq_nil (List.eq_nil_of_length_eq_zero (l := fileLines content []) ?_)).1
  simp only [List.length_nil] at hlen
  omega

theorem apart_of_faithful (hcut : r.Uncut) (h : r.Faithful) :
    ∀ u ∈ r.listed, u.2 = r.payload → r.payload = [] := by
  intro u hu
  by_contra hnot
  have hlines := (h _ (r.rowOf_untracked_mem hu)).1
  rw [r.rowOf_patch hnot] at hlines
  have hnone := shownLines_listed hcut (fun f hf g hg l hl => (showable_of_faithful h hf hg hl).1)
    (fun f hf g hg l hl => (showable_of_faithful h hf hg hl).2) (names_of_faithful hcut h) hu
  have hlimited : r.limitedLines u.1 = [] := hlines.symm.trans hnone
  rw [limitedLines_listed hu] at hlimited
  obtain ⟨hsame, hne⟩ := Classical.not_imp.mp hnot
  exact hne (hsame ▸ fileLines_of_projectLines hlimited)

theorem stored_of_faithful (hcut : r.Uncut) (h : r.Faithful) {u : Str × Bytes}
    (hu : u ∈ r.listed) :
    ∀ l ∈ (fileLines u.2 []).take maxProjectedHunkLines, Unbroken (lineText l.1 l.2) := by
  have hlines : (r.rowOf (untrackedFile r.store u.1 u.2)).hunks.flatMap (·.lines) =
      r.limitedLines u.1 := (h _ (r.rowOf_untracked_mem hu)).1
  have hshown : (r.rowOf (untrackedFile r.store u.1 u.2)).hunks.flatMap (·.lines) =
      (projectContent u.2).1.flatMap (·.lines) := by
    rw [(r.rowOf_own (apart_of_faithful hcut h u hu)).1]
    split
    · rfl
    · rename_i hempty
      rw [not_not.mp hempty]
      exact shownLines_listed hcut (fun f hf g hg l hl => (showable_of_faithful h hf hg hl).1)
        (fun f hf g hg l hl => (showable_of_faithful h hf hg hl).2) (names_of_faithful hcut h) hu
  rw [hshown, lines_projectContent, limitedLines_listed hu] at hlines
  have htexts := congrArg (List.map (·.text)) hlines
  rw [map_text_projectLines, map_text_projectLines] at htexts
  intro l hl
  have hmem : lineText l.1 l.2 ∈ (splitLines (Utf8.decode u.2) []).take maxProjectedHunkLines :=
    htexts ▸ List.mem_map_of_mem hl
  exact unbroken_of_mem_splitLines unbroken_nil (List.mem_of_mem_take hmem)

/-! ## 6.  Faithful panels -/

/-- **The panel shows the whole patch or says so exactly on plain evidence**, as long as
nothing breaks the rows that name a file or begin a hunk. -/
theorem faithful_iff_plain (r : ReviewedDiff) (hcut : r.Uncut) : r.Faithful ↔ r.Plain := by
  constructor
  · intro h
    exact
      { whole := fun f hf g hg l hl => (showable_of_faithful h hf hg hl).1
        quiet := fun f hf g hg l hl => (showable_of_faithful h hf hg hl).2
        blanks := blanks_of_faithful hcut h
        names := names_of_faithful hcut h
        short := short_of_faithful h
        apart := apart_of_faithful hcut h
        stored := fun u hu => stored_of_faithful hcut h hu }
  · intro h row hrow
    rcases r.mem_rows hrow with ⟨record, hrecord, rfl⟩ | ⟨u, hu, rfl⟩
    · exact shows_record hcut h hrecord
    · exact shows_listed hcut h hu

end ReviewedDiff

/-! ### A deleted comment -/

/-- A store whose references spell the content out. -/
def spelledStore : ArtifactStore where
  ref payload := String.ofList ('@' :: payload.map fun b => Char.ofNat b.toNat)
  read ref := (ref.toList.drop 1).map fun c => UInt8.ofNat c.toNat
  read_ref payload := by
    rw [String.toList_ofList, List.drop_one, List.tail_cons, List.map_map]
    refine (List.map_congr_left fun b _ => ?_).trans (List.map_id payload)
    have hvalid : b.toNat.isValidChar := Or.inl (Nat.lt_trans b.toNat_lt (by decide))
    show UInt8.ofNat (Char.ofNat b.toNat).toNat = b
    rw [Char.toNat_ofNat, if_pos hvalid, UInt8.ofNat_toNat]
  ref_ne payload h := by
    have hlist := congrArg String.toList h
    rw [String.toList_ofList] at hlist
    exact absurd hlist (by simp)

/-- The hunk that deletes the comment before a statement. -/
def commentHunk : PatchHunk where
  oldStart := 1
  newStart := 1
  heading := []
  lines := [⟨.del, Utf8.encode "-- old".toList, true, by decide +kernel⟩,
    ⟨.ctx, Utf8.encode "select 1;".toList, true, by decide +kernel⟩]
  headingWhole := List.not_mem_nil
  nonempty := by simp

def commentPatch : FilePatch where
  change := .changed
  oldName := "q.sql".toList
  name := "q.sql".toList
  header := [(.index, "1c2d..3e4f 100644".toList)]
  hunks := [commentHunk]
  relative := by decide +kernel
  oldRelative := by decide +kernel
  sameName := fun _ => rfl

def commentRecord : RawRecord where
  name := "q.sql".toList
  originalName := []
  status := "M"
  score := 0
  oldMode := "100644"
  newMode := "100644"
  oldOid := "1c2d"
  newOid := "3e4f"
  additions := some 0
  deletions := some 1
  binary := false

/-- A review of the deleted comment. -/
def commentReview : ReviewedDiff where
  store := spelledStore
  root := "/repo".toList
  target := "working"
  suppressBlank := false
  files := [commentPatch]
  records := [commentRecord]
  untracked := []
  named := by simp [commentPatch, commentRecord]
  textual := by simp [commentRecord]
  tracked := by simp [commentRecord]
  unique := by simp [observeDiff, listedFiles]

theorem commentReview_uncut : commentReview.Uncut := by
  intro f hf
  rw [List.mem_singleton.mp hf]
  exact ⟨by decide +kernel, by decide +kernel, by decide +kernel⟩

/-- The panel shows the statement, and the deleted comment nowhere. -/
example :
    commentReview.rows.map (fun row => (row.hunks.flatMap (·.lines), row.truncated)) =
      [([⟨.ctx, "select 1;".toList, some 1, some 1⟩], false)] ∧
    commentReview.limitedLines "q.sql".toList =
      [⟨.del, "-- old".toList, some 1, none⟩, ⟨.ctx, "select 1;".toList, some 2, some 1⟩] := by
  decide +kernel

theorem not_faithful_commentReview : ¬ commentReview.Faithful := by
  intro h
  have hrow := (h _ (commentReview.rowOf_mem (List.mem_singleton_self commentRecord))).1
  revert hrow
  decide +kernel

theorem faithful_iff_plain_commentReview :
    commentReview.Uncut ∧ (commentReview.Faithful ↔ commentReview.Plain) :=
  ⟨commentReview_uncut, commentReview.faithful_iff_plain commentReview_uncut⟩

end Coding
end VariantOne
