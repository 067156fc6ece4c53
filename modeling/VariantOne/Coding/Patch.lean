import VariantOne.Core.SplitLines
import VariantOne.Core.Text
import VariantOne.Lib.Utf8

/-!
# Patches in Git's format

What `git diff` writes with the prefixes `a/` and `b/`: for each file a line that names
both sides, further header lines, and, when lines differ, two labels and the hunks.  A
line of a file is a list of bytes that ends at a newline, or at the end of the file; a
name with a control character, a quote or a backslash is shown in quotes.

`FilePatch.rows` is what is written, `FilePatch.numbered` what it says: the added,
deleted and unchanged lines with their numbers.

The two are tied together by `ReviewPanel`, which reads the rows and finds the numbers.  Nothing is assumed
of a line: it may look like a label or like the first row of a hunk, and then the panel reads it as one.
-/

namespace VariantOne
namespace Coding

/-- A text of the host language, decoded. -/
abbrev Str := List Char

abbrev Bytes := List UInt8

inductive LineKind where
  | add | del | ctx
  deriving DecidableEq

/-- The character a line of a hunk begins with. -/
def LineKind.sigil : LineKind → Char
  | .add => '+'
  | .del => '-'
  | .ctx => ' '

/-- A line of a hunk: its bytes without the newline, and whether a newline ends it. -/
structure PatchLine where
  kind : LineKind
  content : Bytes
  ended : Bool
  whole : Utf8.newline ∉ content

/-- A hunk: where it begins on both sides, what stands after its numbers, its lines. -/
structure PatchHunk where
  oldStart : Nat
  newStart : Nat
  heading : Bytes
  lines : List PatchLine
  headingWhole : Utf8.newline ∉ heading
  nonempty : lines ≠ []

/-- How many lines of the old side the hunk covers. -/
def PatchHunk.oldLines (h : PatchHunk) : Nat := (h.lines.filter (·.kind ≠ .add)).length

def PatchHunk.newLines (h : PatchHunk) : Nat := (h.lines.filter (·.kind ≠ .del)).length

/-- The words that begin a further header line. -/
inductive HeaderWord where
  | oldMode | newMode | deletedFileMode | newFileMode | copyFrom | copyTo | renameFrom | renameTo
  | similarityIndex | dissimilarityIndex | index

def HeaderWord.text : HeaderWord → Str
  | .oldMode => "old mode ".toList
  | .newMode => "new mode ".toList
  | .deletedFileMode => "deleted file mode ".toList
  | .newFileMode => "new file mode ".toList
  | .copyFrom => "copy from ".toList
  | .copyTo => "copy to ".toList
  | .renameFrom => "rename from ".toList
  | .renameTo => "rename to ".toList
  | .similarityIndex => "similarity index ".toList
  | .dissimilarityIndex => "dissimilarity index ".toList
  | .index => "index ".toList

inductive FileChange where
  | created | deleted | changed
  deriving DecidableEq

/-- A file of the patch.  Its old name is another one after a rename or a copy only. -/
structure FilePatch where
  change : FileChange
  oldName : Str
  name : Str
  header : List (HeaderWord × Str)
  hunks : List PatchHunk
  relative : name ≠ [] ∧ name.head? ≠ some '/'
  oldRelative : oldName ≠ [] ∧ oldName.head? ≠ some '/'
  sameName : change ≠ .changed → oldName = name

/-! ## Names -/

/-- A name that has one of these is shown in quotes. -/
def needsQuote (c : Char) : Bool :=
  c.toNat < 0x20 || c == '"' || c == '\\' || c.toNat == 0x7f

/-- A character between the quotes. -/
def quoteChar (c : Char) : Str :=
  if c = '"' then ['\\', '"']
  else if c = '\\' then ['\\', '\\']
  else if c = '\t' then ['\\', 't']
  else if c = '\n' then ['\\', 'n']
  else if c = '\r' then ['\\', 'r']
  else if c.toNat = 7 then ['\\', 'a']
  else if c.toNat = 8 then ['\\', 'b']
  else if c.toNat = 11 then ['\\', 'v']
  else if c.toNat = 12 then ['\\', 'f']
  else if needsQuote c then
    ['\\', Nat.digitChar (c.toNat / 64 % 8), Nat.digitChar (c.toNat / 8 % 8),
      Nat.digitChar (c.toNat % 8)]
  else [c]

/-- A name on its side, as Git shows it. -/
def shownName (side name : Str) : Str :=
  if name.any needsQuote then ['"'] ++ side ++ name.flatMap quoteChar ++ ['"'] else side ++ name

/-- A label: a name, and a tab after it when it has a blank. -/
def labelText (shown : Str) : Str := shown ++ if ' ' ∈ shown then ['\t'] else []

def nowhere : Str := "/dev/null".toList

def FilePatch.oldLabel (f : FilePatch) : Str :=
  if f.change = .created then nowhere else labelText (shownName "a/".toList f.oldName)

def FilePatch.newLabel (f : FilePatch) : Str :=
  if f.change = .deleted then nowhere else labelText (shownName "b/".toList f.name)

/-! ## What is written -/

/-- The row that begins a file, and the further header rows. -/
def FilePatch.headRows (f : FilePatch) : List Str :=
  ("diff --git ".toList ++ shownName "a/".toList f.oldName ++ [' '] ++
    shownName "b/".toList f.name) :: f.header.map fun w => w.1.text ++ w.2

def FilePatch.labelRows (f : FilePatch) : List Str :=
  ["--- ".toList ++ f.oldLabel, "+++ ".toList ++ f.newLabel]

/-- A range of lines; a length of one is left out. -/
def rangeText (start lines : Nat) : Str :=
  Nat.toDigits 10 start ++ if lines = 1 then [] else ',' :: Nat.toDigits 10 lines

def PatchHunk.rangeRow (h : PatchHunk) : Str :=
  "@@ -".toList ++ rangeText h.oldStart h.oldLines ++ [' ', '+'] ++
    rangeText h.newStart h.newLines ++ [' ', '@', '@']

def PatchHunk.headRow (h : PatchHunk) : Bytes :=
  Utf8.encode h.rangeRow ++ if h.heading = [] then [] else Utf8.encode [' '] ++ h.heading

def noNewline : Str := "\\ No newline at end of file".toList

/-- With `diff.suppressBlankEmpty` an empty unchanged line is shown without its blank. -/
def PatchLine.hidden (suppressBlank : Bool) (l : PatchLine) : Prop :=
  suppressBlank = true ∧ l.kind = .ctx ∧ l.content = []

instance (suppressBlank : Bool) (l : PatchLine) : Decidable (l.hidden suppressBlank) := by
  unfold PatchLine.hidden
  infer_instance

/-- The rows of a line. -/
def PatchLine.rows (suppressBlank : Bool) (l : PatchLine) : List Bytes :=
  (if l.hidden suppressBlank then [] else Utf8.encode [l.kind.sigil] ++ l.content) ::
    if l.ended then [] else [Utf8.encode noNewline]

def PatchHunk.rows (suppressBlank : Bool) (h : PatchHunk) : List Bytes :=
  h.headRow :: h.lines.flatMap (PatchLine.rows suppressBlank)

def FilePatch.rows (suppressBlank : Bool) (f : FilePatch) : List Bytes :=
  f.headRows.map Utf8.encode ++ if f.hunks = [] then [] else
    f.labelRows.map Utf8.encode ++ f.hunks.flatMap (PatchHunk.rows suppressBlank)

/-- The patch of some files. -/
def patch (suppressBlank : Bool) (files : List FilePatch) : Bytes :=
  Lines.lines Utf8.newline (files.flatMap (FilePatch.rows suppressBlank))

/-! ## What is said -/

/-- A line as the panel shows it. -/
structure HunkLine where
  kind : LineKind
  text : Str
  oldNo : Option Nat
  newNo : Option Nat
  deriving DecidableEq

/-- The line before its end, which is a newline or a carriage return with a newline. -/
def lineText (content : Bytes) (ended : Bool) : Str :=
  let text := Utf8.decode content
  if ended = true ∧ text.getLast? = some '\r' then text.dropLast else text

def PatchLine.text (l : PatchLine) : Str := lineText l.content l.ended

/-- The line under its numbers. -/
def PatchLine.shown (l : PatchLine) (oldNo newNo : Nat) : HunkLine where
  kind := l.kind
  text := l.text
  oldNo := if l.kind = .add then none else some oldNo
  newNo := if l.kind = .del then none else some newNo

/-- The number of the next line of the old side. -/
def LineKind.nextOld (k : LineKind) (oldNo : Nat) : Nat := if k = .add then oldNo else oldNo + 1

def LineKind.nextNew (k : LineKind) (newNo : Nat) : Nat := if k = .del then newNo else newNo + 1

/-- Lines numbered from here on. -/
def numberLines : Nat → Nat → List PatchLine → List HunkLine
  | _, _, [] => []
  | oldNo, newNo, l :: ls =>
      l.shown oldNo newNo :: numberLines (l.kind.nextOld oldNo) (l.kind.nextNew newNo) ls

def FilePatch.numbered (f : FilePatch) : List HunkLine :=
  f.hunks.flatMap fun h => numberLines h.oldStart h.newStart h.lines

/-! ## Stored files -/

/-- The lines of a file, with the line read so far in reverse: the bytes of each, and
whether a newline ends it. -/
def fileLines : Bytes → Bytes → List (Bytes × Bool)
  | [], [] => []
  | [], line => [(line.reverse, false)]
  | b :: bs, line =>
      if b = Utf8.newline then (line.reverse, true) :: fileLines bs []
      else fileLines bs (b :: line)

/-- All lines of a new file. -/
def addedLines : Nat → List (Bytes × Bool) → List HunkLine
  | _, [] => []
  | n, l :: ls => ⟨.add, lineText l.1 l.2, none, some n⟩ :: addedLines (n + 1) ls

end Coding
end VariantOne
