import VariantOne.Git.Streams

/-!
# What Git prints for programs, record by record

Each of the four formats is given by its records and their tokens, with every name and every text that Git
can print: a name is bytes other than NUL.  Beside each record stands what it is to be read as; a name is read
with each backslash made a slash (`slashed`).

`stream` puts the tokens of records behind each other with their NULs.  Nothing in this module reads: the
readers are in `Git.Streams`, and `Git.Formats` shows that they undo what is written here.  A renamed file
has two names, and its record is the only one of two tokens.
-/

namespace VariantOne
namespace Git

open Surrogates (decode point)

/-- Bytes without NUL. -/
structure Plain where
  bytes : Bytes
  nul_notMem : nul ∉ bytes

/-- A name of a file. -/
structure PathName extends Plain where
  nonempty : bytes ≠ []

/-- A field: bytes without NUL and without a space. -/
structure Word extends Plain where
  space_notMem : space ∉ bytes

/-- A letter. -/
structure Letter where
  byte : UInt8
  ascii : byte.toNat < 0x80
  ne_nul : byte ≠ nul
  ne_space : byte ≠ space

/-- The bytes of digits. -/
def digitBytes (digits : List (Fin 10)) : Bytes := digits.map fun d => UInt8.ofNat (0x30 + d.val)

/-- The number that digits write. -/
def numeral (digits : List (Fin 10)) : Nat := digits.foldl (fun n d => 10 * n + d.val) 0

/-- A name with each backslash made a slash. -/
def slashed (path : Bytes) : Bytes := path.map fun b => if b = backslash then slash else b

/-- The stream of some records. -/
def stream {ρ : Type} (tokens : ρ → List Bytes) (rs : List ρ) : Bytes := Lines.lines nul (rs.flatMap tokens)

/-! ### Status -/

/-- What a record of a changed path says besides the path. -/
structure Changed where
  index : Letter
  worktree : Letter
  submodule : Word
  headMode : Word
  indexMode : Word
  worktreeMode : Word
  headOid : Word
  indexOid : Word

def Changed.fields (c : Changed) : List Bytes :=
  [[c.index.byte, c.worktree.byte], c.submodule.bytes, c.headMode.bytes, c.indexMode.bytes,
    c.worktreeMode.bytes, c.headOid.bytes, c.indexOid.bytes]

/-- A record of `git status --porcelain=v2`. -/
inductive StatusRecord where
  | header (key : Word) (value : Plain)
  | ordinary (changed : Changed) (path : PathName)
  | moved (changed : Changed) (score : Word) (path original : PathName)
  | unmerged (changed : Changed) (thirdMode thirdOid : Word) (path : PathName)
  | untracked (path : PathName)
  | ignored (path : PathName)

/-- The fields of an unmerged record: the modes of three stages, that of the worktree, and three objects. -/
def Changed.unmergedFields (c : Changed) (thirdMode thirdOid : Word) : List Bytes :=
  [[c.index.byte, c.worktree.byte], c.submodule.bytes, c.headMode.bytes, c.indexMode.bytes, thirdMode.bytes,
    c.worktreeMode.bytes, c.headOid.bytes, c.indexOid.bytes, thirdOid.bytes]

def StatusRecord.tokens : StatusRecord → List Bytes
  | .header key value => [Lines.lines space [[0x23], key.bytes] ++ value.bytes]
  | .ordinary c path => [Lines.lines space ([0x31] :: c.fields) ++ path.bytes]
  | .moved c score path original =>
      [Lines.lines space ([0x32] :: (c.fields ++ [score.bytes])) ++ path.bytes, original.bytes]
  | .unmerged c thirdMode thirdOid path =>
      [Lines.lines space ([0x75] :: c.unmergedFields thirdMode thirdOid) ++ path.bytes]
  | .untracked path => [Lines.lines space [[0x3F]] ++ path.bytes]
  | .ignored path => [Lines.lines space [[0x21]] ++ path.bytes]

/-- The entry of a changed path. -/
def Changed.entry (c : Changed) (recordType : RecordType) (path original : Bytes) : StatusEntry where
  path := decode (slashed path)
  recordType := recordType
  indexStatus := [point c.index.byte]
  worktreeStatus := [point c.worktree.byte]
  originalPath := decode (slashed original)
  submodule := decode c.submodule.bytes
  headMode := decode c.headMode.bytes
  indexMode := decode c.indexMode.bytes
  worktreeMode := decode c.worktreeMode.bytes
  headOid := decode c.headOid.bytes
  indexOid := decode c.indexOid.bytes

/-- The entry of a path that Git does not track. -/
def PathName.entry (path : PathName) (recordType : RecordType) (status : String) : StatusEntry where
  path := decode (slashed path.bytes)
  recordType := recordType
  indexStatus := lit status
  worktreeStatus := lit status

def StatusRecord.header? : StatusRecord → Option (CodeText × CodeText)
  | .header key value => some (decode key.bytes, decode value.bytes)
  | _ => none

def StatusRecord.statusEntry : StatusRecord → Option StatusEntry
  | .header _ _ => none
  | .ordinary c path => some (c.entry .ordinary path.bytes [])
  | .moved c _ path original => some (c.entry
      (if c.index.byte = 0x52 ∨ c.worktree.byte = 0x52 then .renamed else .copied) path.bytes original.bytes)
  | .unmerged c _ _ path => some (c.entry .unmerged path.bytes [])
  | .untracked path => some (path.entry .untracked "?")
  | .ignored path => some (path.entry .ignored "!")

/-- What the records say: the headers by their keys, and the entries. -/
def statusLines (rs : List StatusRecord) : StatusLines :=
  (Dict.merge [] (rs.filterMap StatusRecord.header?), rs.filterMap StatusRecord.statusEntry)

/-! ### Differences -/

/-- What happened to a path, with the digits of its score. -/
inductive RawChange where
  | plain (kind : Letter) (notMoved : kind.byte ≠ 0x52 ∧ kind.byte ≠ 0x43) (path : PathName)
  | moved (copied : Bool) (original path : PathName)

/-- A record of `git diff --raw`. -/
structure RawRecord where
  oldMode : Word
  newMode : Word
  oldOid : Word
  newOid : Word
  score : List (Fin 10)
  change : RawChange

def RawChange.letter : RawChange → UInt8
  | .plain kind _ _ => kind.byte
  | .moved copied _ _ => if copied then 0x43 else 0x52

def RawChange.path : RawChange → PathName
  | .plain _ _ path => path
  | .moved _ _ path => path

def RawChange.original : RawChange → Bytes
  | .plain _ _ _ => []
  | .moved _ original _ => original.bytes

def RawChange.names : RawChange → List Bytes
  | .plain _ _ path => [path.bytes]
  | .moved _ original path => [original.bytes, path.bytes]

def RawRecord.tokens (r : RawRecord) : List Bytes :=
  (0x3A :: (Lines.lines space [r.oldMode.bytes, r.newMode.bytes, r.oldOid.bytes, r.newOid.bytes] ++
    r.change.letter :: digitBytes r.score)) :: r.change.names

def RawRecord.item (r : RawRecord) : RawItem where
  path := decode (slashed r.change.path.bytes)
  originalPath := decode (slashed r.change.original)
  status := [point r.change.letter]
  score := numeral r.score
  oldMode := decode r.oldMode.bytes
  newMode := decode r.newMode.bytes
  oldOid := decode r.oldOid.bytes
  newOid := decode r.newOid.bytes

/-- What is counted of a file: nothing of a binary one, else the lines added and deleted. -/
inductive Counted where
  | binary
  | lines (added deleted : List (Fin 10)) (nonempty : added ≠ [] ∧ deleted ≠ [])

/-- A record of `git diff --numstat`. -/
structure NumstatRecord where
  counted : Counted
  original : Option PathName
  path : PathName

def Counted.fields : Counted → List Bytes
  | .binary => [[0x2D], [0x2D]]
  | .lines added deleted _ => [digitBytes added, digitBytes deleted]

def Counted.counts : Counted → Counts
  | .binary => ⟨none, none, true⟩
  | .lines added deleted _ => ⟨some (numeral added), some (numeral deleted), false⟩

def NumstatRecord.tokens (r : NumstatRecord) : List Bytes :=
  match r.original with
  | none => [Lines.lines tab r.counted.fields ++ r.path.bytes]
  | some original => [Lines.lines tab r.counted.fields, original.bytes, r.path.bytes]

def NumstatRecord.entry (r : NumstatRecord) : CodeText × Counts :=
  (decode (slashed r.path.bytes), r.counted.counts)

/-! ### Worktrees -/

/-- What Git says of a worktree after its path. -/
inductive WorktreeKey where
  | bare | head | branch | detached | locked | prunable
  deriving DecidableEq

def WorktreeKey.all : List WorktreeKey := [.bare, .head, .detached, .branch, .locked, .prunable]

def WorktreeKey.text : WorktreeKey → String
  | .bare => "bare"
  | .head => "HEAD"
  | .branch => "branch"
  | .detached => "detached"
  | .locked => "locked"
  | .prunable => "prunable"

def WorktreeKey.bytes : WorktreeKey → Bytes
  | .bare => [0x62, 0x61, 0x72, 0x65]
  | .head => [0x48, 0x45, 0x41, 0x44]
  | .branch => [0x62, 0x72, 0x61, 0x6E, 0x63, 0x68]
  | .detached => [0x64, 0x65, 0x74, 0x61, 0x63, 0x68, 0x65, 0x64]
  | .locked => [0x6C, 0x6F, 0x63, 0x6B, 0x65, 0x64]
  | .prunable => [0x70, 0x72, 0x75, 0x6E, 0x61, 0x62, 0x6C, 0x65]

def worktreeBytes : Bytes := [0x77, 0x6F, 0x72, 0x6B, 0x74, 0x72, 0x65, 0x65]

/-- A record of `git worktree list --porcelain`: of each key, whether it has a line, and with which text. -/
structure WorktreeRecord where
  path : PathName
  line : WorktreeKey → Option (Option Plain)

/-- A line: a key, with a text or alone. -/
def keyLine (key : Bytes) : Option Plain → Bytes
  | none => key
  | some value => key ++ space :: value.bytes

def keyAttribute : Option Plain → Attribute
  | none => .yes
  | some value => .text (decode value.bytes)

def WorktreeRecord.tokens (r : WorktreeRecord) : List Bytes :=
  (worktreeBytes ++ space :: r.path.bytes) ::
    WorktreeKey.all.filterMap (fun key => (r.line key).map (keyLine key.bytes)) ++ [[]]

/-- The text of a key; a line without one is the text `True`. -/
def WorktreeRecord.value (r : WorktreeRecord) (key : WorktreeKey) : CodeText :=
  match r.line key with
  | some (some value) => decode value.bytes
  | some none => lit "True"
  | none => []

def WorktreeRecord.holds (r : WorktreeRecord) (key : WorktreeKey) : Bool :=
  match r.line key with
  | some (some value) => decide (value.bytes ≠ [])
  | some none => true
  | none => false

def WorktreeRecord.observation (realpath : CodeText → CodeText) (r : WorktreeRecord) :
    WorktreeObservation where
  root := realpath (decode r.path.bytes)
  headOid := r.value .head
  branchRef := r.value .branch
  detached := r.holds .detached
  bare := r.holds .bare
  locked := r.value .locked
  prunable := r.value .prunable

end Git
end VariantOne
