import VariantOne.Coding.Patch

/-!
# The review panel

`_patch_hunks` reads a patch line by line into the hunks of each path, and
`project_files` turns the files of a review and the stored evidence into the rows that
the panel shows.  A review is made of what Git says about the files and of the files
that it does not track (`observeDiff`, `start`).

The dictionary of hunks is kept as the list of its hunks in the order they are made,
each under its path; the hunk that takes lines is the last one.

A row says for its path what was added and deleted, from the hunks of the patch or from the stored file,
and whether the limit cut it.  Every row of Git's answer has one, in order; a path without a hunk has one
too.
-/

namespace VariantOne
namespace Coding

/-- `_MAX_PROJECTED_HUNK_LINES` -/
def maxProjectedHunkLines : Nat := 500

/-! ## `_HUNK` -/

/-- The digits zero of the decimal digits of Unicode, each followed by the other nine. -/
def decimalZeros : List Nat :=
  [0x30, 0x660, 0x6F0, 0x7C0, 0x966, 0x9E6, 0xA66, 0xAE6, 0xB66, 0xBE6, 0xC66, 0xCE6, 0xD66,
    0xDE6, 0xE50, 0xED0, 0xF20, 0x1040, 0x1090, 0x17E0, 0x1810, 0x1946, 0x19D0, 0x1A80, 0x1A90,
    0x1B50, 0x1BB0, 0x1C40, 0x1C50, 0xA620, 0xA8D0, 0xA900, 0xA9D0, 0xA9F0, 0xAA50, 0xABF0,
    0xFF10, 0x104A0, 0x10D30, 0x11066, 0x110F0, 0x11136, 0x111D0, 0x112F0, 0x11450, 0x114D0,
    0x11650, 0x116C0, 0x11730, 0x118E0, 0x11950, 0x11C50, 0x11D50, 0x11DA0, 0x11F50, 0x16A60,
    0x16AC0, 0x16B50, 0x1D7CE, 0x1D7D8, 0x1D7E2, 0x1D7EC, 0x1D7F6, 0x1E140, 0x1E2F0, 0x1E4F0,
    0x1E950, 0x1FBF0]

/-- The value of a decimal digit. -/
def decimal? (c : Char) : Option Nat :=
  (decimalZeros.find? fun z => z ≤ c.toNat && c.toNat < z + 10).map (c.toNat - ·)

/-- `(\d+)`, with `int` of what it matched, and what is left. -/
def matchNumber (s : Str) : Option (Nat × Str) :=
  let digits := s.takeWhile fun c => (decimal? c).isSome
  if digits = [] then none
  else some (digits.foldl (fun n c => 10 * n + (decimal? c).getD 0) 0, s.drop digits.length)

/-- A text at the front of another one. -/
def matchText (t s : Str) : Option Str := if t <+: s then some (s.drop t.length) else none

/-- `(\d+)(?:,(\d+))?`, where the second number is one when it is left out. -/
def matchRange (s : Str) : Option (Nat × Nat × Str) :=
  (matchNumber s).map fun start =>
    match (matchText [','] start.2).bind matchNumber with
    | some lines => (start.1, lines.1, lines.2)
    | none => (start.1, 1, start.2)

/-- The numbers of a hunk. -/
structure HunkRange where
  oldStart : Nat
  oldLines : Nat
  newStart : Nat
  newLines : Nat
  deriving DecidableEq

/-- `_HUNK.match(raw)` -/
def matchHunk (raw : Str) : Option HunkRange := do
  let s ← matchText "@@ -".toList raw
  let old ← matchRange s
  let s ← matchText [' ', '+'] old.2.2
  let new ← matchRange s
  let _ ← matchText [' ', '@', '@'] new.2.2
  return ⟨old.1, old.2.1, new.1, new.2.1⟩

/-! ## `_patch_hunks` -/

structure ReviewHunk extends HunkRange where
  lines : List HunkLine
  deriving DecidableEq

/-- The variables of `_patch_hunks`. -/
structure PatchCursor where
  result : List (Str × ReviewHunk) := []
  path : Str := []
  oldPath : Str := []
  /-- `current` is the last hunk of the result, or nothing. -/
  current : Bool := false
  oldNo : Nat := 0
  newNo : Nat := 0
  rendered : Nat := 0
  deriving DecidableEq

/-- The value without its side. -/
def dropSide (side value : Str) : Str := if side <+: value then value.drop 2 else value

/-- The last hunk takes a line. -/
def appendLine (line : HunkLine) : List (Str × ReviewHunk) → List (Str × ReviewHunk)
  | [] => []
  | [(path, hunk)] => [(path, { hunk with lines := hunk.lines ++ [line] })]
  | h :: hs => h :: appendLine line hs

/-- A line of a hunk goes to the current one, and the numbers go on. -/
def PatchCursor.takeLine (s : PatchCursor) (kind : LineKind) (text : Str) : PatchCursor :=
  { s with
    result := appendLine ⟨kind, text, if kind = .add then none else some s.oldNo,
      if kind = .del then none else some s.newNo⟩ s.result
    oldNo := kind.nextOld s.oldNo
    newNo := kind.nextNew s.newNo
    rendered := s.rendered + 1 }

/-- A line of the patch that no marker begins. -/
def PatchCursor.readBody (s : PatchCursor) (raw : Str) : PatchCursor :=
  if s.current = false ∨ maxProjectedHunkLines ≤ s.rendered then s
  else if ['+'] <+: raw ∧ ¬ ['+', '+', '+'] <+: raw then s.takeLine .add (raw.drop 1)
  else if ['-'] <+: raw ∧ ¬ ['-', '-', '-'] <+: raw then s.takeLine .del (raw.drop 1)
  else if [' '] <+: raw then s.takeLine .ctx (raw.drop 1)
  else s

/-- One turn of the loop of `_patch_hunks`. -/
def PatchCursor.read (s : PatchCursor) (raw : Str) : PatchCursor :=
  if "diff --git ".toList <+: raw then
    { s with path := [], oldPath := [], current := false, rendered := 0 }
  else if "--- ".toList <+: raw then
    let oldPath := dropSide "a/".toList (stripChars (raw.drop 4))
    { s with oldPath := if oldPath = nowhere then [] else oldPath }
  else if "+++ ".toList <+: raw then
    let path := dropSide "b/".toList (stripChars (raw.drop 4))
    { s with path := if path = nowhere then s.oldPath else path }
  else
    match matchHunk raw with
    | some range =>
        if s.path = [] then s.readBody raw
        else
          { s with
            result := s.result ++ [(s.path, ⟨range, []⟩)]
            current := true
            oldNo := range.oldStart
            newNo := range.newStart }
    | none => s.readBody raw

/-- The hunks of `_patch_hunks(payload)`, each under its path. -/
def patchHunks (payload : Bytes) : List (Str × ReviewHunk) :=
  ((splitLines (Utf8.decode payload) []).foldl PatchCursor.read {}).result

/-- `patch_hunks.get(path) or ()` -/
def hunksOf (hunks : List (Str × ReviewHunk)) (path : Str) : List ReviewHunk :=
  (hunks.filter (·.1 = path)).map (·.2)

/-! ## Reviews -/

/-- The store of artifacts: a reference is made of the content. -/
structure ArtifactStore where
  ref : Bytes → String
  read : String → Bytes
  read_ref : ∀ payload, read (ref payload) = payload
  ref_ne : ∀ payload, ref payload ≠ ""

/-- `_normal_path` -/
def normalPath (value : Str) : Str := value.map fun c => if c = '\\' then '/' else c

/-- A record of `git diff --raw -z`, with the counts of `--numstat`. -/
structure RawRecord where
  name : Str
  originalName : Str
  status : String
  score : Int
  oldMode : String
  newMode : String
  oldOid : String
  newOid : String
  additions : Option Nat
  deletions : Option Nat
  binary : Bool

/-- `DiffFile` -/
structure DiffFile where
  path : Str
  originalPath : Str
  status : String
  score : Int
  oldMode : String
  newMode : String
  oldOid : String
  newOid : String
  additions : Option Nat
  deletions : Option Nat
  binary : Bool
  contentRef : String

/-- The file of a record, as `GitProcess.diff` returns it. -/
def RawRecord.file (r : RawRecord) : DiffFile where
  path := normalPath r.name
  originalPath := normalPath r.originalName
  status := r.status
  score := r.score
  oldMode := r.oldMode
  newMode := r.newMode
  oldOid := r.oldOid
  newOid := r.newOid
  additions := r.additions
  deletions := r.deletions
  binary := r.binary
  contentRef := ""

/-- The file of an entry that Git does not track. -/
def untrackedFile (store : ArtifactStore) (path : Str) (payload : Bytes) : DiffFile where
  path := path
  originalPath := []
  status := "?"
  score := 0
  oldMode := ""
  newMode := ""
  oldOid := ""
  newOid := ""
  additions := none
  deletions := none
  binary := false
  contentRef := store.ref payload

/-- The targets whose reviews show untracked files. -/
def showsUntracked (target : String) : Bool :=
  target.toLower ∈ ["uncommitted", "base_branch", "working", "working_since"]

/-- The untracked files that `observe_diff` adds. -/
def listedFiles (target : String) (records : List RawRecord) (untracked : List (Str × Bytes)) :
    List (Str × Bytes) :=
  if showsUntracked target then
    untracked.filter fun u => u.1 ∉ records.map fun r => r.file.path
  else []

/-- What `observe_diff` keeps of a diff. -/
structure DiffSnapshot where
  patchRef : String
  files : List DiffFile

def observeDiff (store : ArtifactStore) (target : String) (records : List RawRecord)
    (payload : Bytes) (untracked : List (Str × Bytes)) : DiffSnapshot where
  patchRef := if payload = [] then "" else store.ref payload
  files := records.map RawRecord.file ++
    (listedFiles target records untracked).map fun u => untrackedFile store u.1 u.2

/-- `ReviewFile` -/
structure ReviewFile where
  path : Str
  originalPath : Str
  status : String
  score : Int
  oldMode : String
  newMode : String
  oldOid : String
  newOid : String
  additions : Option Nat
  deletions : Option Nat
  binary : Bool
  patchRef : String

/-- What `project_files` reads of a review. -/
structure ReviewRecord where
  root : Str
  patchRef : String
  files : List ReviewFile

/-- A file of a new review. -/
def DiffFile.reviewFile (item : DiffFile) (patchRef : String) : ReviewFile where
  path := item.path
  originalPath := item.originalPath
  status := item.status
  score := item.score
  oldMode := item.oldMode
  newMode := item.newMode
  oldOid := item.oldOid
  newOid := item.newOid
  additions := item.additions
  deletions := item.deletions
  binary := item.binary
  patchRef := if item.contentRef = "" then patchRef else item.contentRef

def startReview (root : Str) (snapshot : DiffSnapshot) : ReviewRecord where
  root := root
  patchRef := snapshot.patchRef
  files := snapshot.files.map fun item => item.reviewFile snapshot.patchRef

/-! ## `project_files` -/

/-- A row of the panel: the file, and what `project_files` adds to it. -/
structure PanelRow where
  item : ReviewFile
  absPath : Str
  label : Str
  action : String
  added : Nat
  removed : Nat
  truncated : Bool
  hunks : List ReviewHunk

/-- `os.path.join(root, path)` -/
def joinPath (root path : Str) : Str :=
  if ['/'] <+: path then path
  else if root = [] ∨ root.getLast? = some '/' then root ++ path
  else root ++ '/' :: path

/-- `os.path.basename(path)` -/
def basename (path : Str) : Str := path.rtakeWhile (· ≠ '/')

def fileAction (status : String) : String :=
  if "A".toList <+: status.toList ∨ "?".toList <+: status.toList then "create"
  else if "D".toList <+: status.toList then "delete" else "update"

/-- `enumerate(lines, n)` as added lines. -/
def projectLines : Nat → List Str → List HunkLine
  | _, [] => []
  | n, line :: lines => ⟨.add, line, none, some n⟩ :: projectLines (n + 1) lines

/-- The hunks of a stored file, and whether lines of it are left out. -/
def projectContent (payload : Bytes) : List ReviewHunk × Bool :=
  let lines := splitLines (Utf8.decode payload) []
  let projected := projectLines 1 (lines.take maxProjectedHunkLines)
  (if projected = [] then [] else [⟨⟨1, 0, 1, lines.length⟩, projected⟩],
    decide (projected.length < lines.length))

/-- `project_files`, for one file. -/
def projectFile (store : ArtifactStore) (review : ReviewRecord)
    (patched : List (Str × ReviewHunk)) (item : ReviewFile) : PanelRow :=
  let status := (if item.status = "" then "M" else item.status).toUpper
  let hunks := hunksOf patched item.path
  let stored := projectContent (store.read item.patchRef)
  let own := status = "?" ∧ item.patchRef ≠ "" ∧ item.patchRef ≠ review.patchRef
  { item := item
    absPath := joinPath review.root item.path
    label := if basename item.path = [] then item.path else basename item.path
    action := fileAction status
    added := item.additions.getD 0
    removed := item.deletions.getD 0
    truncated := item.binary || (decide own && stored.2)
    hunks := if own ∧ stored.1 ≠ [] then stored.1 else hunks }

/-- `project_files` -/
def projectFiles (store : ArtifactStore) (review : ReviewRecord) : List PanelRow :=
  let patched := if review.patchRef = "" then [] else patchHunks (store.read review.patchRef)
  review.files.map (projectFile store review patched)

end Coding
end VariantOne
