import VariantOne.Git.Records

/-!
# The status of a repository and its fingerprint

`status` reads what Git prints, and of each file that Git does not track its content or, of a symbolic link,
its target.  A fingerprint is the hash of all this: the head, the stream, and the hashes of the patches and
contents.  `assertCurrent` compares it with the one that a review was made with.

A repository is given by what Git prints and by what the file system holds at an absolute path.

The content of a file enters through its hash only, and so does the target of a link: the two are hashed
alike.  What two states must share for `assertCurrent` to accept one for the other is worked out in
`Git.Freshness`.
-/

namespace VariantOne
namespace Git

open Surrogates (decode point encode)

/-! ## 1.  Paths -/

/-- `os.path.join(root, path)` -/
def joinPath (root path : CodeText) : CodeText :=
  if lit "/" <+: path then path
  else if root = [] ∨ root.getLast? = some (point slash) then root ++ path
  else root ++ point slash :: path

/-- The components of a path, without empty ones and those that name the directory itself. -/
def components (path : CodeText) : List CodeText :=
  (path.splitOn (point slash)).filter fun c => c ≠ [] && c ≠ lit "."

/-- Take a component: one that names the directory above drops the last. -/
def pushComponent (taken : List CodeText) (c : CodeText) : List CodeText :=
  if c = lit ".." then taken.dropLast else taken ++ [c]

/-- `os.path.abspath`, of an absolute path. -/
def absPath (path : CodeText) : CodeText :=
  let front := if lit "//" <+: path ∧ ¬ lit "///" <+: path then lit "//" else lit "/"
  front ++ [point slash].intercalate ((components path).foldl pushComponent [])

/-- What two lists start with alike. -/
def commonFront : List CodeText → List CodeText → List CodeText
  | a :: as, b :: bs => if a = b then a :: commonFront as bs else []
  | _, _ => []

/-- `os.path.commonpath([a, b])`, of absolute paths. -/
def commonPath (a b : CodeText) : CodeText :=
  point slash :: [point slash].intercalate (commonFront (components a) (components b))

/-! ## 2.  What is read -/

/-- What stands at a path. -/
inductive Node where
  | link (target : Bytes)
  | file (content : Bytes)
  | other
  deriving DecidableEq

/-- What the host reads of a repository: Git's output, the object at an absolute path, and
`os.path.realpath`. -/
structure Host where
  run : Run
  lstat : CodeText → Option Node
  realpath : CodeText → CodeText

def statusCommand : List String :=
  ["status", "--porcelain=v2", "--branch", "-z", "--untracked-files=all"]

def indexPatchCommand : List String := ["diff", "--cached", "--binary", "--no-ext-diff", "--no-textconv"]

def worktreePatchCommand : List String := ["diff", "--binary", "--no-ext-diff", "--no-textconv"]

/-- Where an entry is looked for. -/
def Host.located (H : Host) (root path : CodeText) : CodeText :=
  absPath (joinPath (H.realpath (absPath root)) path)

/-- The bytes that an untracked entry is hashed by, and how much of the bound they use. -/
def Host.untracked (H : Host) (root path : CodeText) : Except Failure (Bytes × Nat) :=
  let rootReal := H.realpath (absPath root)
  let absolute := H.located root path
  if commonPath rootReal absolute ≠ rootReal then
    .error (.gitCommandError "untracked path escapes the repository")
  else
    match H.lstat absolute with
    | none => .error (.gitCommandError "cannot fingerprint untracked path")
    | some (.link target) =>
        match encode (decode target) with
        | some bytes => .ok (bytes, 0)
        | none => .error (.valueError "surrogates not allowed")
    | some (.file content) =>
        if commonPath rootReal (H.realpath absolute) ≠ rootReal then
          .error (.gitCommandError "untracked file resolves outside the repository")
        else .ok (content, content.length)
    | some .other => .error (.gitCommandError "unsupported untracked filesystem object")

/-- The loop over the entries: the path and the bytes of each that is untracked. -/
def Host.readUntracked (H : Host) (root : CodeText) (maxBytes : Nat) :
    Nat → List StatusEntry → Except Failure (List (CodeText × Bytes))
  | _, [] => .ok []
  | admitted, entry :: entries =>
      if entry.recordType ≠ .untracked then H.readUntracked root maxBytes admitted entries
      else do
        let (bytes, size) ← H.untracked root entry.path
        if maxBytes < admitted + size then
          throw (.gitCommandError "untracked content exceeds the exact fingerprint bound")
        else
          let rest ← H.readUntracked root maxBytes (admitted + size) entries
          return (entry.path, bytes) :: rest

/-- What `status` reads. -/
structure Observed where
  raw : Bytes
  lines : StatusLines
  index : Bytes
  worktree : Bytes
  untracked : List (CodeText × Bytes)
  deriving DecidableEq

def Host.observe (H : Host) (root : CodeText) (maxBytes : Nat) : Except Failure Observed := do
  let raw ← H.run statusCommand
  let lines ← parseStatus raw
  let index ← H.run indexPatchCommand
  let worktree ← H.run worktreePatchCommand
  let untracked ← H.readUntracked root maxBytes 0 lines.2
  return ⟨raw, lines, index, worktree, untracked⟩

/-! ## 3.  The fingerprint -/

/-- A hash of 32 bytes. -/
structure Sha256 where
  digest : Bytes → Bytes
  length_digest : ∀ data, (digest data).length = 32

/-- `.hexdigest()` -/
def hexdigest (digest : Bytes) : List Char :=
  digest.flatMap fun b => [Nat.digitChar (b.toNat / 16), Nat.digitChar (b.toNat % 16)]

/-- A header, or nothing. -/
def StatusLines.header (s : StatusLines) (key : String) : CodeText := (Dict.get? s.1 (lit key)).getD []

/-- The commit that the status names. -/
def StatusLines.headOid (s : StatusLines) : CodeText :=
  if s.header "branch.oid" = lit "(initial)" then [] else s.header "branch.oid"

/-- `text.encode("ascii", errors="ignore")` -/
def asciiBytes (text : CodeText) : Bytes := (text.filter fun p => p.val < 0x80).map fun p => UInt8.ofNat p.val

/-- `b"status"`, `b"index"`, `b"worktree"` and `b"untracked"` -/
def statusLabel : Bytes := [0x73, 0x74, 0x61, 0x74, 0x75, 0x73]
def indexLabel : Bytes := [0x69, 0x6E, 0x64, 0x65, 0x78]
def worktreeLabel : Bytes := [0x77, 0x6F, 0x72, 0x6B, 0x74, 0x72, 0x65, 0x65]
def untrackedLabel : Bytes := [0x75, 0x6E, 0x74, 0x72, 0x61, 0x63, 0x6B, 0x65, 0x64]

/-- A label between two NULs. -/
def labelled (label : Bytes) : Bytes := nul :: (label ++ [nul])

/-- The part of the material for one untracked file. -/
def untrackedMaterial (sha : Sha256) (u : CodeText × Bytes) : Bytes :=
  labelled untrackedLabel ++ (encode u.1).getD [] ++ nul :: sha.digest u.2

/-- What the fingerprint is the hash of. -/
def Observed.material (sha : Sha256) (o : Observed) : Bytes :=
  asciiBytes o.lines.headOid ++ labelled statusLabel ++ o.raw ++ labelled indexLabel ++ sha.digest o.index ++
    labelled worktreeLabel ++ sha.digest o.worktree ++ o.untracked.flatMap (untrackedMaterial sha)

/-- The values that are hashed. -/
def Observed.hashed (sha : Sha256) (o : Observed) : List Bytes :=
  o.material sha :: o.index :: o.worktree :: o.untracked.map Prod.snd

/-- `StatusSnapshot` -/
structure StatusSnapshot where
  headOid : CodeText
  branch : CodeText
  upstream : CodeText
  ahead : Int
  behind : Int
  entries : List StatusEntry
  fingerprint : List Char
  deriving DecidableEq

/-- `text.split()` -/
def words (text : CodeText) : List CodeText := (text.splitOnP textNumerals.blank).filter (· ≠ [])

/-- How many commits the branch is ahead and behind. -/
def aheadBehind : List CodeText → Int × Int → Except Failure (Int × Int)
  | [], counts => .ok counts
  | part :: parts, (ahead, behind) =>
      if lit "+" <+: part then do
        aheadBehind parts (← textNumerals.intOrZero (part.drop 1), behind)
      else if lit "-" <+: part then do
        aheadBehind parts (ahead, ← textNumerals.intOrZero (part.drop 1))
      else aheadBehind parts (ahead, behind)

/-- `GitProcess.status`, as a review calls it. -/
def status (sha : Sha256) (H : Host) (root : CodeText) (maxBytes : Nat) : Except Failure StatusSnapshot := do
  let o ← H.observe root maxBytes
  let (ahead, behind) ← aheadBehind (words (o.lines.header "branch.ab")) (0, 0)
  let head := o.lines.header "branch.head"
  return {
    headOid := o.lines.headOid
    branch := if head = lit "(detached)" then [] else head
    upstream := o.lines.header "branch.upstream"
    ahead := ahead
    behind := behind
    entries := o.lines.2
    fingerprint := hexdigest (sha.digest (o.material sha)) }

/-! ## 4.  `assert_current` -/

/-- What `assert_current` reads of a review. -/
structure Review where
  root : CodeText
  target : String
  baseRef : CodeText
  baseOid : CodeText
  headRef : CodeText
  headOid : CodeText
  statusFingerprint : List Char
  state : String
  deriving DecidableEq

/-- What `assert_current` raises. -/
inductive ReviewRefusal where
  | scopeMismatch
  | git (failure : Failure)
  | stale
  deriving DecidableEq

/-- The targets that are compared with the working tree. -/
def workingTargets : List String := ["working", "working_since", "staged", "uncommitted", "base_branch"]

/-- Whether what was reviewed has changed; `resolve` is `git.resolve` of a reference. -/
def Review.changed (r : Review) (current : Except Failure StatusSnapshot)
    (resolve : CodeText → Except Failure CodeText) : Except Failure Bool :=
  if r.target ∈ workingTargets then
    current.map fun s => decide (s.headOid ≠ r.headOid) || decide (s.fingerprint ≠ r.statusFingerprint)
  else if r.target = "branch" then (resolve r.headRef).map fun oid => decide (oid ≠ r.headOid)
  else if r.target ∈ ["range", "custom"] then do
    if (← resolve r.headRef) ≠ r.headOid then return true
    else return decide ((← resolve r.baseRef) ≠ r.baseOid)
  else .ok false

/-- `assert_current`: what it returns, and the review that is stored. -/
def assertCurrent (sha : Sha256) (H : Host) (maxBytes : Nat) (resolve : CodeText → Except Failure CodeText)
    (inScope markStale : Bool) (r : Review) : Except ReviewRefusal Review × Review :=
  if inScope = false then (.error .scopeMismatch, r)
  else
    match r.changed (status sha H r.root maxBytes) resolve with
    | .error failure => (.error (.git failure), r)
    | .ok false => (.ok r, r)
    | .ok true =>
        if markStale ∧ r.state ∈ ["open", "approved"] then (.error .stale, { r with state := "stale" })
        else (.error .stale, r)

end Git
end VariantOne
