import VariantOne.Coding.Review
import VariantOne.Core.Text
import VariantOne.Lib.Dict
import VariantOne.Lib.Fields
import VariantOne.Lib.Surrogates

/-!
# What Git prints for programs

Git prints status, differences and worktrees as tokens that end in NUL, with fields in them that end in a
space or a tab.  `parseStatus`, `parseRawDiff`, `parseNumstat` and `worktrees` read the four formats, and
`diff` joins two of them by path.

A text is the code points that the bytes of the token decode to, surrogates for those that are not UTF-8
(`_decode` is `Surrogates.decode`).

A reader takes the tokens one by one and raises on a record that it does not know, or whose second name is
missing.  What follows the last NUL is no token.
-/

namespace VariantOne
namespace Git

open Surrogates (decode point)

abbrev Bytes := List UInt8

/-- What reading a stream raises. -/
inductive Failure where
  | gitCommandError (message : String)
  | valueError (message : String)
  deriving DecidableEq, Repr

/-- The text of an ASCII string. -/
abbrev lit (s : String) : CodeText := CodeText.ofString s

def nul : UInt8 := 0x00
def tab : UInt8 := 0x09
def space : UInt8 := 0x20
def slash : UInt8 := 0x2F
def backslash : UInt8 := 0x5C

/-- `_normal_path` -/
def normalPath (value : CodeText) : CodeText :=
  value.map fun p => if p = point backslash then point slash else p

/-! ## 1.  `int` -/

/-- What `int` tells apart in a text. -/
structure Numerals (κ : Type) where
  digit : κ → Option Nat
  blank : κ → Bool
  plus : κ
  minus : κ
  underscore : κ

/-- Digits, with single underscores between them. -/
def Numerals.natural? {κ : Type} [DecidableEq κ] (N : Numerals κ) (s : List κ) : Option Nat :=
  ((s.splitOn N.underscore).mapM fun part => if part = [] then none else part.mapM N.digit).map
    fun parts => parts.flatten.foldl (fun n d => 10 * n + d) 0

/-- `int(s)` -/
def Numerals.int? {κ : Type} [DecidableEq κ] (N : Numerals κ) (s : List κ) : Option Int :=
  match (s.dropWhile N.blank).rdropWhile N.blank with
  | [] => none
  | c :: rest =>
      if c = N.plus then (N.natural? rest).map Int.ofNat
      else if c = N.minus then (N.natural? rest).map fun n => - Int.ofNat n
      else (N.natural? (c :: rest)).map Int.ofNat

/-- The digits that `int` reads in bytes. -/
def byteNumerals : Numerals UInt8 where
  digit := fun b => if 0x30 ≤ b.toNat ∧ b.toNat ≤ 0x39 then some (b.toNat - 0x30) else none
  blank := fun b => (9 ≤ b.toNat && b.toNat ≤ 13) || b.toNat == 0x20
  plus := 0x2B
  minus := 0x2D
  underscore := 0x5F

/-- The digits that `int` reads in a text. -/
def textNumerals : Numerals CodePoint where
  digit := fun p =>
    (Coding.decimalZeros.find? fun z => z ≤ p.val && p.val < z + 10).map (p.val - ·)
  blank := fun p => p.char?.elim false isSpace
  plus := point 0x2B
  minus := point 0x2D
  underscore := point 0x5F

/-- `int(s or 0)` -/
def Numerals.intOrZero {κ : Type} [DecidableEq κ] (N : Numerals κ) (s : List κ) : Except Failure Int :=
  if s = [] then .ok 0
  else
    match N.int? s with
    | some n => .ok n
    | none => .error (.valueError "invalid literal for int() with base 10")

/-! ## 2.  `parse_status` -/

/-- `record_type` -/
inductive RecordType where
  | ordinary | renamed | copied | unmerged | untracked | ignored
  deriving DecidableEq, Repr

/-- `StatusEntry` -/
structure StatusEntry where
  path : CodeText
  recordType : RecordType
  indexStatus : CodeText
  worktreeStatus : CodeText
  originalPath : CodeText := []
  submodule : CodeText := []
  headMode : CodeText := []
  indexMode : CodeText := []
  worktreeMode : CodeText := []
  headOid : CodeText := []
  indexOid : CodeText := []
  deriving DecidableEq

/-- `xy[:1] or default` -/
def letter (xy : CodeText) (otherwise : String) : CodeText :=
  if xy.take 1 = [] then lit otherwise else xy.take 1

/-- What the first two characters of a record say it is. -/
inductive LineKind where
  | header | ordinary | moved | unmerged | untracked | ignored
  deriving DecidableEq, Repr

def lineKind? (text : CodeText) : Option LineKind :=
  if lit "# " <+: text then some .header
  else if lit "1 " <+: text then some .ordinary
  else if lit "2 " <+: text then some .moved
  else if lit "u " <+: text then some .unmerged
  else if lit "? " <+: text then some .untracked
  else if lit "! " <+: text then some .ignored
  else none

/-- `text.split(" ", n)` -/
def fieldsOf (n : Nat) (text : CodeText) : List CodeText := Fields.splitMax (point space) n text

def ordinaryEntry : List CodeText → Option StatusEntry
  | [_, xy, submodule, headMode, indexMode, worktreeMode, headOid, indexOid, path] => some {
      path := normalPath path
      recordType := .ordinary
      indexStatus := letter xy "."
      worktreeStatus := letter (xy.drop 1) "."
      submodule := submodule
      headMode := headMode
      indexMode := indexMode
      worktreeMode := worktreeMode
      headOid := headOid
      indexOid := indexOid }
  | _ => none

def movedEntry (original : CodeText) : List CodeText → Option StatusEntry
  | [_, xy, submodule, headMode, indexMode, worktreeMode, headOid, indexOid, _, path] => some {
      path := normalPath path
      recordType :=
        if xy.take 1 = lit "R" ∨ (xy.drop 1).take 1 = lit "R" then .renamed else .copied
      indexStatus := letter xy "."
      worktreeStatus := letter (xy.drop 1) "."
      originalPath := normalPath original
      submodule := submodule
      headMode := headMode
      indexMode := indexMode
      worktreeMode := worktreeMode
      headOid := headOid
      indexOid := indexOid }
  | _ => none

def unmergedEntry : List CodeText → Option StatusEntry
  | [_, xy, submodule, headMode, indexMode, _, worktreeMode, headOid, indexOid, _, path] => some {
      path := normalPath path
      recordType := .unmerged
      indexStatus := letter xy "U"
      worktreeStatus := letter (xy.drop 1) "U"
      submodule := submodule
      headMode := headMode
      indexMode := indexMode
      worktreeMode := worktreeMode
      headOid := headOid
      indexOid := indexOid }
  | _ => none

/-- The entry of a path that Git does not track. -/
def pathEntry (recordType : RecordType) (status : String) (text : CodeText) : StatusEntry where
  path := normalPath (text.drop 2)
  recordType := recordType
  indexStatus := lit status
  worktreeStatus := lit status

/-- The headers and the entries read so far. -/
abbrev StatusLines := List (CodeText × CodeText) × List StatusEntry

def StatusLines.addHeader (s : StatusLines) (text : CodeText) : StatusLines :=
  let (key, value) := Fields.cut (point space) (text.drop 2)
  (Dict.set s.1 key (value.getD []), s.2)

def StatusLines.addEntry (s : StatusLines) (read : Option StatusEntry) (message : String) :
    Except Failure StatusLines :=
  match read with
  | some entry => .ok (s.1, s.2 ++ [entry])
  | none => .error (.gitCommandError message)

/-- The loop of `parse_status`. -/
def readStatus : List Bytes → StatusLines → Except Failure StatusLines
  | [], s => .ok s
  | [] :: tokens, s => readStatus tokens s
  | (b :: token) :: tokens, s =>
      let text := decode (b :: token)
      match lineKind? text with
      | some .header => readStatus tokens (s.addHeader text)
      | some .ordinary => do
          readStatus tokens (← s.addEntry (ordinaryEntry (fieldsOf 8 text))
            "invalid porcelain v2 ordinary record")
      | some .moved =>
          match tokens with
          | [] => .error (.gitCommandError "invalid porcelain v2 rename/copy record")
          | original :: tokens => do
              readStatus tokens (← s.addEntry (movedEntry (decode original) (fieldsOf 9 text))
                "invalid porcelain v2 rename/copy record")
      | some .unmerged => do
          readStatus tokens (← s.addEntry (unmergedEntry (fieldsOf 10 text))
            "invalid porcelain v2 unmerged record")
      | some .untracked => readStatus tokens (s.1, s.2 ++ [pathEntry .untracked "?" text])
      | some .ignored => readStatus tokens (s.1, s.2 ++ [pathEntry .ignored "!" text])
      | none => .error (.gitCommandError "unknown porcelain v2 status record")

/-- `raw and not raw.endswith(b"\0")` -/
def Truncated (raw : Bytes) : Prop := raw ≠ [] ∧ raw.getLast? ≠ some nul

instance (raw : Bytes) : Decidable (Truncated raw) := inferInstanceAs (Decidable (_ ∧ _))

/-- `parse_status` -/
def parseStatus (raw : Bytes) : Except Failure StatusLines :=
  if Truncated raw then .error (.gitCommandError "truncated porcelain v2 status stream")
  else readStatus (raw.splitOn nul) ([], [])

/-! ## 3.  `_parse_raw_diff` -/

/-- A record of `git diff --raw`. -/
structure RawItem where
  path : CodeText
  originalPath : CodeText
  status : CodeText
  score : Int
  oldMode : CodeText
  newMode : CodeText
  oldOid : CodeText
  newOid : CodeText
  deriving DecidableEq

/-- Add the record whose paths are known. -/
def addRawItem (output : List RawItem) (oldMode newMode oldOid newOid : Bytes) (status : CodeText)
    (path originalPath : CodeText) : Except Failure (List RawItem) := do
  let score ← textNumerals.intOrZero (status.drop 1)
  return output ++ [⟨path, originalPath, status.take 1, score, decode oldMode, decode newMode,
    decode oldOid, decode newOid⟩]

/-- The loop of `_parse_raw_diff`. -/
def readRawDiff : List Bytes → List RawItem → Except Failure (List RawItem)
  | [], output => .ok output
  | [] :: tokens, output => readRawDiff tokens output
  | (b :: metadata) :: tokens, output =>
      match tokens with
      | [] => .error (.gitCommandError "invalid --raw -z diff record")
      | first :: tokens =>
          if b ≠ 0x3A then .error (.gitCommandError "invalid --raw -z diff record")
          else
            match metadata.splitOn space with
            | [oldMode, newMode, oldOid, newOid, statusToken] =>
                let status := decode statusToken
                if status.take 1 = lit "R" ∨ status.take 1 = lit "C" then
                  match tokens with
                  | [] => .error (.gitCommandError "truncated rename/copy diff record")
                  | second :: tokens => do
                      readRawDiff tokens (← addRawItem output oldMode newMode oldOid newOid status
                        (normalPath (decode second)) (normalPath (decode first)))
                else do
                  readRawDiff tokens (← addRawItem output oldMode newMode oldOid newOid status
                    (normalPath (decode first)) [])
            | _ => .error (.gitCommandError "invalid --raw -z diff metadata")

/-- `_parse_raw_diff` -/
def parseRawDiff (raw : Bytes) : Except Failure (List RawItem) :=
  if Truncated raw then .error (.gitCommandError "truncated --raw -z diff stream")
  else readRawDiff (raw.splitOn nul) []

/-! ## 4.  `_parse_numstat` -/

/-- Added and deleted lines, and whether the file is binary. -/
structure Counts where
  additions : Option Int
  deletions : Option Int
  binary : Bool
  deriving DecidableEq

/-- The counts of a record. -/
def readCounts (add delete : Bytes) : Except Failure Counts :=
  if add = [0x2D] ∨ delete = [0x2D] then .ok ⟨none, none, true⟩
  else do
    let additions ← byteNumerals.intOrZero add
    let deletions ← byteNumerals.intOrZero delete
    return ⟨some additions, some deletions, false⟩

/-- The loop of `_parse_numstat`. -/
def readNumstat : List Bytes → List (CodeText × Counts) → Except Failure (List (CodeText × Counts))
  | [], output => .ok output
  | [] :: tokens, output => readNumstat tokens output
  | (b :: token) :: tokens, output =>
      match Fields.splitMax tab 2 (b :: token) with
      | [add, delete, path] =>
          if normalPath (decode path) = [] then
            match tokens with
            | _ :: second :: tokens => do
                let counts ← readCounts add delete
                readNumstat tokens (Dict.set output (normalPath (decode second)) counts)
            | _ => .error (.gitCommandError "truncated rename numstat record")
          else do
            let counts ← readCounts add delete
            readNumstat tokens (Dict.set output (normalPath (decode path)) counts)
      | _ => .error (.gitCommandError "invalid --numstat -z record")

/-- `_parse_numstat` -/
def parseNumstat (raw : Bytes) : Except Failure (List (CodeText × Counts)) :=
  if Truncated raw then .error (.gitCommandError "truncated --numstat -z stream")
  else readNumstat (raw.splitOn nul) []

/-! ## 5.  `diff` -/

/-- What Git prints for its arguments, or what running it raises. -/
abbrev Run := List String → Except Failure Bytes

/-- `DiffFile` -/
structure DiffFile where
  item : RawItem
  counts : Counts
  deriving DecidableEq

/-- `DiffObservation` -/
structure DiffObservation where
  files : List DiffFile
  patch : Bytes
  deriving DecidableEq

def diffShared : List String := ["--no-ext-diff", "--no-textconv", "--find-renames", "--find-copies"]

/-- The three commands of `diff`. -/
def rawCommand (selector paths : List String) : List String :=
  ["diff", "--raw", "-z", "--no-abbrev", "--full-index"] ++ diffShared ++ selector ++ ["--"] ++ paths

def numstatCommand (selector paths : List String) : List String :=
  ["diff", "--numstat", "-z"] ++ diffShared ++ selector ++ ["--"] ++ paths

def patchCommand (selector paths : List String) (context : Int) : List String :=
  ["diff", "--binary", s!"--unified={max 0 (min context 100)}", "--src-prefix=a/", "--dst-prefix=b/"] ++
    diffShared ++ selector ++ ["--"] ++ paths

/-- The file of a record: with the counts of its path, or none counted. -/
def diffFile (counts : List (CodeText × Counts)) (item : RawItem) : DiffFile :=
  ⟨item, (Dict.get? counts item.path).getD ⟨some 0, some 0, false⟩⟩

/-- What `diff` makes of the three outputs. -/
def diffOf (raw numstat patch : Bytes) : Except Failure DiffObservation := do
  let counts ← parseNumstat numstat
  let items ← parseRawDiff raw
  return ⟨items.map (diffFile counts), patch⟩

/-- `GitProcess.diff` -/
def diff (run : Run) (selector paths : List String) (context : Int) : Except Failure DiffObservation := do
  let raw ← run (rawCommand selector paths)
  let numstat ← run (numstatCommand selector paths)
  let patch ← run (patchCommand selector paths context)
  diffOf raw numstat patch

/-! ## 6.  `worktrees` -/

/-- What a line says of a worktree: a text, or that it is so. -/
inductive Attribute where
  | text (value : CodeText)
  | yes
  deriving DecidableEq

/-- `str(current.get(key) or "")` -/
def attributeText (current : List (CodeText × Attribute)) (key : String) : CodeText :=
  match Dict.get? current (lit key) with
  | some (.text value) => value
  | some .yes => lit "True"
  | none => []

/-- `bool(current.get(key))` -/
def attributeHolds (current : List (CodeText × Attribute)) (key : String) : Bool :=
  match Dict.get? current (lit key) with
  | some (.text value) => decide (value ≠ [])
  | some .yes => true
  | none => false

/-- `WorktreeObservation` -/
structure WorktreeObservation where
  root : CodeText
  headOid : CodeText
  branchRef : CodeText
  detached : Bool
  bare : Bool
  locked : CodeText
  prunable : CodeText
  deriving DecidableEq

/-- The worktree of the lines read since the last one; `realpath` is `os.path.realpath`. -/
def worktreeOf (realpath : CodeText → CodeText) (current : List (CodeText × Attribute)) :
    WorktreeObservation where
  root := realpath (attributeText current "worktree")
  headOid := attributeText current "HEAD"
  branchRef := attributeText current "branch"
  detached := attributeHolds current "detached"
  bare := attributeHolds current "bare"
  locked := attributeText current "locked"
  prunable := attributeText current "prunable"

/-- The loop of `worktrees`, and what follows it. -/
def readWorktrees (realpath : CodeText → CodeText) :
    List Bytes → List WorktreeObservation × List (CodeText × Attribute) → List WorktreeObservation
  | [], (rows, current) =>
      if attributeHolds current "worktree" then rows ++ [worktreeOf realpath current] else rows
  | [] :: tokens, (rows, current) =>
      if attributeHolds current "worktree" then
        readWorktrees realpath tokens (rows ++ [worktreeOf realpath current], [])
      else readWorktrees realpath tokens (rows, current)
  | (b :: token) :: tokens, (rows, current) =>
      let (key, value) := Fields.cut (point space) (decode (b :: token))
      readWorktrees realpath tokens (rows, Dict.set current key (match value with
        | some value => .text value
        | none => .yes))

/-- What `worktrees` makes of the output. -/
def worktreesOf (realpath : CodeText → CodeText) (raw : Bytes) : Except Failure (List WorktreeObservation) :=
  if Truncated raw then .error (.gitCommandError "truncated worktree porcelain stream")
  else .ok (readWorktrees realpath (raw.splitOn nul) ([], []))

/-- `worktrees` -/
def worktrees (run : Run) (realpath : CodeText → CodeText) : Except Failure (List WorktreeObservation) := do
  let raw ← run ["worktree", "list", "--porcelain", "-z"]
  worktreesOf realpath raw

end Git
end VariantOne
