import Mathlib.Data.List.MinMax
import Mathlib.Data.Prod.Lex
import Mathlib.Data.String.Basic
import VariantOne.Core.Text
import VariantOne.Lib.Dict
import VariantOne.Lib.Json
import VariantOne.Lib.Keyset
import VariantOne.Lib.Machine
import VariantOne.Lib.Table

/-!
# The artifact store

The bytes of an artifact are a file whose name is their digest.  Who may read it is a matter of
grants: a scope reads the artifacts it was granted.  A grant carries a media type and a kind, so a
scope can hold several grants of one artifact, and the readers pick one of them.

Readers strip the scope they are given.  A put records its scope as it is, so a put under a scope with
blanks around it is readable under no scope at all.  Two readers also disagree which grant is the
latest when two have one time, and an export may be written over another artifact.  In runs without
these the grants are exact (`Faithful`).
-/

namespace VariantOne
namespace Artifacts

abbrev Bytes := List UInt8

/-- `str.encode("utf-8")` -/
def utf8 (s : String) : Bytes := s.toByteArray.data.toList

/-! ## 1.  References and rows -/

/-- A digit of a digest. -/
def isHexDigit (c : Char) : Bool := ('0' ≤ c && c ≤ '9') || ('a' ≤ c && c ≤ 'f')

/-- `[0-9a-f]{64}` -/
def IsDigest (text : String) : Prop := text.length = 64 ∧ ∀ c ∈ text.toList, isHexDigit c = true

instance (text : String) : Decidable (IsDigest text) :=
  @instDecidableAnd _ _ inferInstance (List.decidableBAll _ _)

/-- `hashlib.sha256(raw).hexdigest()` -/
structure Digest where
  hexdigest : Bytes → String
  isDigest : ∀ raw, IsDigest (hexdigest raw)

/-- The beginning of a reference. -/
def refScheme : String := "artifact://sha256/"

/-- The reference of a digest. -/
def refOf (digest : String) : String := refScheme ++ digest

/-- A reference as callers hand it over: a text, or an `ArtifactRef` with its hints. -/
structure RefArg where
  ref : String
  mediaType : String
  kind : String
  deriving DecidableEq, Repr

/-- A text. -/
def RefArg.text (ref : String) : RefArg := ⟨ref, "", ""⟩

structure ArtifactRef where
  ref : String
  sha256 : String
  bytes : Nat
  mediaType : String
  kind : String
  scope : String
  deriving DecidableEq, Repr

/-- `artifact_object` -/
structure ArtifactObject where
  ref : String
  sha256 : String
  bytes : Nat
  mediaType : String
  kind : String
  createdAt : ℚ
  deriving DecidableEq, Repr

/-- `artifact_grant` and `artifact_semantic_grant` -/
structure ArtifactGrant where
  scope : String
  ref : String
  sha256 : String
  bytes : Nat
  mediaType : String
  kind : String
  createdAt : ℚ
  deriving DecidableEq, Repr

/-- `PRIMARY KEY(scope, ref)` -/
def ArtifactGrant.pair (g : ArtifactGrant) : String × String := (g.scope, g.ref)

/-- `PRIMARY KEY(scope, ref, media_type, kind)` -/
def ArtifactGrant.key (g : ArtifactGrant) : String × String × String × String :=
  (g.scope, g.ref, g.mediaType, g.kind)

structure ArtifactMetadata where
  ref : String
  sha256 : String
  bytes : Nat
  mediaType : String
  kind : String
  createdAt : ℚ
  scope : String
  deriving DecidableEq, Repr

structure ArtifactManifest where
  scope : String
  items : List ArtifactMetadata
  hasMore : Bool
  nextAfterRef : String
  totalBytes : Nat
  digest : String
  deriving DecidableEq, Repr

structure ArtifactExport where
  ref : String
  sha256 : String
  bytes : Nat
  destination : String
  verified : Bool
  deriving DecidableEq, Repr

inductive ArtifactError where
  | permission (message : String)
  | value (message : String)
  | notFound (path : String)
  | exists (message : String)
  | integrity (message : String)
  deriving DecidableEq, Repr

/-- Where a store is, and its functions on texts.  `canonicalDigest` is that of the page of a
manifest: its scope, its items, whether there are more, and the next reference. -/
structure StoreHost where
  root : String
  digest : Digest
  canonicalDigest : String → List ArtifactMetadata → Bool → String → String

/-- The files, by their absolute paths, and the catalogue of a store. -/
structure ArtifactStore where
  files : List (String × Bytes)
  objects : Table ArtifactObject String ArtifactObject.ref
  grants : Table ArtifactGrant (String × String) ArtifactGrant.pair
  semantic : Table ArtifactGrant (String × String × String × String) ArtifactGrant.key

/-- `INSERT OR IGNORE` -/
def insertOrIgnore {ρ κ : Type} {key : ρ → κ} [DecidableEq κ] (t : Table ρ κ key) (r : ρ) :
    Table ρ κ key := (t.insert? r).getD t

/-! ## 2.  The store -/

/-- `_clean_scope` -/
def cleanScope (scope : String) : Except ArtifactError String :=
  if strip scope = "" then .error (.permission "artifact scope is required") else .ok (strip scope)

/-- `_ref_parts`: the digest. -/
def refParts (ref : String) : Except ArtifactError String :=
  let digest := String.ofList (ref.toList.drop refScheme.length)
  if ref = refOf digest ∧ IsDigest digest then .ok digest
  else .error (.value "invalid artifact reference")

namespace StoreHost

variable (H : StoreHost)

/-- `_path` -/
def path (digest : String) : String :=
  H.root ++ "/" ++ String.ofList (digest.toList.take 2) ++ "/" ++
    String.ofList ((digest.toList.drop 2).take 2) ++ "/" ++ digest

/-- The database of the catalogue. -/
def grantPath : String := H.root ++ "/artifact-grants.sqlite3"

end StoreHost

namespace ArtifactStore

/-- A store without artifacts. -/
def empty : ArtifactStore := ⟨[], Table.empty, Table.empty, Table.empty⟩

/-- The content of a file. -/
def file (s : ArtifactStore) (path : String) : Option Bytes := Dict.get? s.files path

/-- `os.replace` -/
def write (s : ArtifactStore) (path : String) (raw : Bytes) : ArtifactStore :=
  { s with files := Dict.set s.files path raw }

/-- `_record_grant` -/
def recordGrant (ref : ArtifactRef) (now : ℚ) (s : ArtifactStore) : ArtifactStore :=
  let objects := insertOrIgnore s.objects
    ⟨ref.ref, ref.sha256, ref.bytes, ref.mediaType, ref.kind, now⟩
  let row : ArtifactGrant := ⟨ref.scope, ref.ref, ref.sha256, ref.bytes, ref.mediaType, ref.kind, now⟩
  if ref.scope = "" then { s with objects := objects }
  else
    { s with
      objects := objects
      grants := insertOrIgnore s.grants row
      semantic := insertOrIgnore s.semantic row }

/-- `_DEFAULT_MEDIA_TYPE` -/
def defaultMediaType : String := "application/octet-stream"

/-- `_DEFAULT_KIND` -/
def defaultKind : String := "capability_payload"

/-- `value or default` -/
def orDefault (value default : String) : String := if value = "" then default else value

variable (H : StoreHost)

/-- The file of a digest holds a payload with this digest and this length. -/
def validFile (s : ArtifactStore) (digest : String) (length : Nat) : Bool :=
  (s.file (H.path digest)).any fun raw => H.digest.hexdigest raw = digest && raw.length = length

/-- The reference of a put. -/
def putRef (raw : Bytes) (mediaType kind scope : String) : ArtifactRef :=
  ⟨refOf (H.digest.hexdigest raw), H.digest.hexdigest raw, raw.length, orDefault mediaType defaultMediaType,
    orDefault kind defaultKind, scope⟩

/-- `put_bytes` -/
def putBytes (raw : Bytes) (mediaType kind scope : String) (now : ℚ) (s : ArtifactStore) :
    ArtifactRef × ArtifactStore :=
  let digest := H.digest.hexdigest raw
  let s := if s.validFile H digest raw.length then s else s.write (H.path digest) raw
  let ref := putRef H raw mediaType kind scope
  (ref, s.recordGrant ref now)

/-- `put_file`: the bytes that are read are put. -/
def putFile (source mediaType kind scope : String) (maxBytes : Option Int) (now : ℚ) (s : ArtifactStore) :
    Except ArtifactError ArtifactRef × ArtifactStore :=
  match s.file source with
  | none => (.error (.notFound source), s)
  | some raw =>
      if maxBytes.any fun m => decide (max 0 m < (raw.length : Int)) then
        (.error (.value s!"artifact file exceeds {max 0 (maxBytes.getD 0)} bytes"), s)
      else
        let (ref, s) := s.putBytes H raw mediaType kind scope now
        (.ok ref, s)

/-- `put_text` -/
def putText (value kind scope : String) (now : ℚ) (s : ArtifactStore) : ArtifactRef × ArtifactStore :=
  s.putBytes H (utf8 value) "text/plain; charset=utf-8" kind scope now

/-- `put_json` -/
def putJson (value : Json) (kind scope : String) (now : ℚ) (s : ArtifactStore) :
    ArtifactRef × ArtifactStore :=
  s.putBytes H (utf8 (String.ofList value.dumps)) "application/json" kind scope now

/-- `read_bytes` -/
def readBytes (ref : String) (s : ArtifactStore) : Except ArtifactError Bytes := do
  let digest ← refParts ref
  match s.file (H.path digest) with
  | none => .error (.notFound (H.path digest))
  | some raw => .ok raw

/-- The grants of an artifact in a scope, in the order of the primary key. -/
def grantsOf (s : ArtifactStore) (scope ref : String) : List ArtifactGrant :=
  (s.semantic.rows.filter fun g => g.scope = scope && g.ref = ref).insertionSort
    fun g g' => toLex (g.mediaType, g.kind) ≤ toLex (g'.mediaType, g'.kind)

/-- The grant `stat` picks: the one of the hints, else the latest.  Among grants of one time SQL leaves
the choice open: here it is the first in the order of the index. -/
def statGrant (s : ArtifactStore) (scope : String) (ref : RefArg) : Option ArtifactGrant :=
  (s.grantsOf scope ref.ref).argmax fun g =>
    toLex (if g.mediaType = ref.mediaType ∧ g.kind = ref.kind then 1 else 0, g.createdAt)

/-- What a grant tells. -/
def grantMetadata (g : ArtifactGrant) : ArtifactMetadata :=
  ⟨g.ref, g.sha256, g.bytes, g.mediaType, g.kind, g.createdAt, g.scope⟩

/-- What the catalogue tells of an object. -/
def objectMetadata (o : ArtifactObject) : ArtifactMetadata :=
  ⟨o.ref, o.sha256, o.bytes, o.mediaType, o.kind, o.createdAt, ""⟩

/-- What `stat` checks of the file. -/
def checkFile (metadata : ArtifactMetadata) (digest : String) (verify : Bool) (s : ArtifactStore) :
    Except ArtifactError ArtifactMetadata :=
  match s.file (H.path digest) with
  | none => .error (.notFound metadata.ref)
  | some raw =>
      if metadata.sha256 ≠ digest then
        .error (.integrity "artifact metadata digest does not match its reference")
      else if verify ∧ ¬ (H.digest.hexdigest raw = metadata.sha256 ∧ raw.length = metadata.bytes) then
        .error (.integrity "artifact bytes do not match their content-addressed identity")
      else .ok metadata

/-- `stat` of a scope. -/
def statScoped (ref : RefArg) (scope : String) (verify : Bool) (s : ArtifactStore) :
    Except ArtifactError ArtifactMetadata := do
  let digest ← refParts ref.ref
  let scope ← cleanScope scope
  match s.statGrant scope ref with
  | none => .error (.permission "artifact is outside this scope's grant")
  | some g => s.checkFile H (grantMetadata g) digest verify

/-- `stat` of the host: a file without a row is registered.  `mtime` is the time of that file. -/
def statHost (ref : RefArg) (verify : Bool) (mtime now : ℚ) (s : ArtifactStore) :
    Except ArtifactError ArtifactMetadata × ArtifactStore :=
  match refParts ref.ref with
  | .error e => (.error e, s)
  | .ok digest =>
      match s.objects.find? ref.ref with
      | some o => (s.checkFile H (objectMetadata o) digest verify, s)
      | none =>
          match s.file (H.path digest) with
          | none => (.error (.notFound ref.ref), s)
          | some raw =>
              let metadata : ArtifactMetadata :=
                ⟨ref.ref, digest, raw.length, defaultMediaType, defaultKind, mtime, ""⟩
              let s := s.recordGrant
                ⟨ref.ref, digest, raw.length, defaultMediaType, defaultKind, ""⟩ now
              (s.checkFile H metadata digest verify, s)

/-- `stat` -/
def stat (ref : RefArg) (scope : Option String) (verify : Bool) (mtime now : ℚ) (s : ArtifactStore) :
    Except ArtifactError ArtifactMetadata × ArtifactStore :=
  match scope with
  | none => s.statHost H ref verify mtime now
  | some scope => (s.statScoped H ref scope verify, s)

/-- `read_bytes_scoped` -/
def readBytesScoped (ref scope : String) (s : ArtifactStore) : Except ArtifactError Bytes := do
  let _ ← s.statScoped H (.text ref) scope false
  s.readBytes H ref

/-- `grant` -/
def grant (ref : RefArg) (scope : String) (sourceScope : Option String) (verify : Bool) (mtime now : ℚ)
    (s : ArtifactStore) : Except ArtifactError ArtifactRef × ArtifactStore :=
  match cleanScope scope with
  | .error e => (.error e, s)
  | .ok targetScope =>
      match s.stat H ref sourceScope verify mtime now with
      | (.error e, s) => (.error e, s)
      | (.ok metadata, s) =>
          let granted : ArtifactRef :=
            ⟨metadata.ref, metadata.sha256, metadata.bytes, metadata.mediaType, metadata.kind, targetScope⟩
          (.ok granted, s.recordGrant granted now)

/-- The references a scope was granted, in increasing order. -/
def scopeRefs (s : ArtifactStore) (scope : String) : List String :=
  (((s.semantic.rows.filter fun g => g.scope = scope).map (·.ref)).dedup).insertionSort (· ≤ ·)

/-- The grant of rank 1 of an artifact in a scope. -/
def rankedGrant (s : ArtifactStore) (scope ref : String) : Option ArtifactGrant :=
  (s.grantsOf scope ref).argmax fun g => toLex (g.createdAt, toLex (g.kind, g.mediaType))

/-- The grants of rank 1 of a scope. -/
def rankedGrants (s : ArtifactStore) (scope : String) : List ArtifactGrant :=
  (s.scopeRefs scope).filterMap (s.rankedGrant scope)

/-- `max(1, min(limit, 500))` -/
def manifestLimit (limit : Int) : Nat := (max 1 (min limit 500)).toNat

/-- A page of grants as a manifest, with its items as they are or verified. -/
def manifestOf (scope : String) (items : List ArtifactMetadata) (hasMore : Bool) : ArtifactManifest :=
  let nextAfterRef := if hasMore then (items.getLast?.map (·.ref)).getD "" else ""
  ⟨scope, items, hasMore, nextAfterRef, (items.map (·.bytes)).sum,
    H.canonicalDigest scope items hasMore nextAfterRef⟩

/-- `manifest` -/
def manifest (scope : String) (limit : Int) (afterRef : String) (verify : Bool) (s : ArtifactStore) :
    Except ArtifactError ArtifactManifest := do
  let scope ← cleanScope scope
  let cursor := strip afterRef
  if cursor ≠ "" then
    let _ ← refParts cursor
  let page := Keyset.pageBy ArtifactGrant.ref (s.rankedGrants scope) (manifestLimit limit) cursor
  let items := page.1.map grantMetadata
  let items ←
    if verify then items.mapM fun item => s.statScoped H (.text item.ref) scope true else .ok items
  return manifestOf H scope items page.2

/-- `export_to`, to an absolute path. -/
def exportTo (ref : RefArg) (destination : String) (scope : Option String) (overwrite verify : Bool)
    (mtime now : ℚ) (s : ArtifactStore) : Except ArtifactError ArtifactExport × ArtifactStore :=
  match s.stat H ref scope false mtime now with
  | (.error e, s) => (.error e, s)
  | (.ok metadata, s) =>
      if destination = H.path metadata.sha256 then
        (.error (.value "artifact cannot be exported over its CAS object"), s)
      else if (s.file destination).isSome ∧ overwrite = false then
        (.error (.exists "Destination exists; choose another path or pass overwrite=True"), s)
      else
        match s.file (H.path metadata.sha256) with
        | none => (.error (.notFound (H.path metadata.sha256)), s)
        | some raw =>
            if verify ∧ ¬ (raw.length = metadata.bytes ∧ H.digest.hexdigest raw = metadata.sha256) then
              (.error (.integrity "artifact bytes do not match their content-addressed identity"), s)
            else if raw.length ≠ metadata.bytes then
              (.error (.integrity "exported byte count does not match artifact metadata"), s)
            else
              (.ok ⟨metadata.ref, metadata.sha256, raw.length, destination, verify⟩,
                s.write destination raw)

end ArtifactStore

end Artifacts
end VariantOne
