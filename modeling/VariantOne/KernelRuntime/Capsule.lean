import VariantOne.Core.Tree
import VariantOne.Core.Value

/-!
# Portable capsules: capture and restore

A value of the kernel's namespace is captured as bytes and restored from them in
another kernel.  The values live in a heap, so a container may reach itself; a walker
looks at a value before anything is written, and stops at its limits.

The texts between are JSON.  Writing and reading JSON is the library's work
(`JsonLibrary`), and the codecs of third-party types and dataclasses are left as they
are: what they write is a parameter of the capture.

`captureValue` answers for one name: captured with a codec and its bytes, too large, or excluded with a
reason.  `restoreValue` reads what was captured back as a tree, which is a value with its sharing undone.
That the two are inverse to each other is the subject of `CapsuleRoundTrip`.
-/

namespace VariantOne
namespace KernelRuntime

/-! ## 1.  The namespace -/

/-- A reference to a value: a scalar, or the identity of an object. -/
inductive Obj where
  | scalar (v : Scalar)
  | ref (id : Nat)
  deriving DecidableEq

/-- The text a key is. -/
def Obj.text? : Obj → Option CodeText
  | .scalar (.str s) => some s
  | _ => none

/-- What `_excluded_reason` reads of a type; its names are casefolded. -/
structure ForeignType where
  moduleName : String
  className : String
  isModule : Bool
  callable : Bool
  /-- `bytearray` or `memoryview` -/
  mutableBinary : Bool

/-- An object of the heap.  The keys of a dictionary that are texts are distinct. -/
inductive Object where
  | sequence (tuple : Bool) (items : List Obj)
  | dict (entries : List (Obj × Obj)) (distinct : (entries.filterMap fun e => e.1.text?).Nodup)
  | dataclass (importable allInit : Bool) (fields : List Obj)
  | ndarray (hasObject : Bool)
  | pandas
  | arrow
  | foreign (type : ForeignType)

abbrev Heap := Nat → Object

/-! ## 2.  Walking -/

/-- What a walker sees of a value. -/
inductive Shape (α : Type) where
  | scalar (v : Scalar)
  | sequence (tuple : Bool) (id : Option Nat) (items : List α)
  /-- The keys that are texts, and the values. -/
  | dict (id : Option Nat) (entries : List (Option CodeText × α))
  | other

def Heap.shape (heap : Heap) : Obj → Shape Obj
  | .scalar v => .scalar v
  | .ref id =>
      match heap id with
      | .sequence tuple items => .sequence tuple (some id) items
      | .dict entries _ => .dict (some id) (entries.map fun e => (e.1.text?, e.2))
      | _ => .other

/-- A value that was just decoded shares nothing. -/
def treeShape : Tree → Shape Tree
  | .leaf v => .scalar v
  | .sequence tuple items => .sequence tuple none items
  | .dict entries => .dict none (entries.map fun e => (some e.1, e.2))

/-- A walker: its limits, whether it lets tuples in, and what it calls a type it does
not know. -/
structure Walker where
  maxDepth : Nat
  maxItems : Nat
  tuples : Bool
  unsupported : String

section Visit

variable {α : Type}

/-- `for child in item` -/
def visitItems (visit : Nat → α → Except String Nat) : Nat → List α → Except String Nat
  | visited, [] => .ok visited
  | visited, item :: items =>
      match visit visited item with
      | .error reason => .error reason
      | .ok visited => visitItems visit visited items

/-- `for key, child in item.items()` -/
def visitEntries (visit : Nat → α → Except String Nat) :
    Nat → List (Option CodeText × α) → Except String Nat
  | visited, [] => .ok visited
  | _, (none, _) :: _ => .error "non_string_json_key"
  | visited, (some _, item) :: entries =>
      match visit visited item with
      | .error reason => .error reason
      | .ok visited => visitEntries visit visited entries

variable (view : α → Shape α) (w : Walker)

/-- `visit`, with the depth that is left: the number of values visited so far and
after. -/
def visit : Nat → List Nat → Nat → Shape α → Except String Nat
  | 0, _, _, _ => .error "max_depth_exceeded"
  | left + 1, seen, visited, item =>
      if w.maxItems < visited + 1 then .error "max_container_items_exceeded"
      else
        match item with
        | .scalar (.nonFinite _) => .error "non_finite_float"
        | .scalar (.bytes _) => .error w.unsupported
        | .scalar _ => .ok (visited + 1)
        | .sequence tuple id items =>
            if tuple && !w.tuples then .error w.unsupported
            else if id.any seen.contains then .error "recursive_value"
            else visitItems (fun n x => visit left (id.toList ++ seen) n (view x)) (visited + 1) items
        | .dict id entries =>
            if id.any seen.contains then .error "recursive_value"
            else
              visitEntries (fun n x => visit left (id.toList ++ seen) n (view x)) (visited + 1)
                entries
        | .other => .error w.unsupported

/-- The analysis of a value: nothing, or the reason it is excluded. -/
def Walker.analysis (item : Shape α) : Option String :=
  match visit view w (w.maxDepth + 1) [] 0 item with
  | .ok _ => none
  | .error reason => some reason

end Visit

/-- The limits of a capture. -/
structure CapsuleLimits where
  maxDepth : Nat
  maxContainerItems : Nat
  maxValueBytes : Nat

/-- `_strict_json_analysis` -/
def strictJsonWalker (maxDepth maxItems : Nat) : Walker :=
  ⟨maxDepth, max 1 maxItems, false, "unsupported_type"⟩

/-- `_portable_tree_analysis` -/
def portableTreeWalker (maxDepth maxItems : Nat) : Walker :=
  ⟨maxDepth, maxItems, true, "unsupported_nested_type"⟩

/-- `_strict_json_value`, of a decoded value. -/
def strictJsonValue (value : Tree) : Bool :=
  ((strictJsonWalker 1000 10000000).analysis treeShape (treeShape value)).isNone

/-! ## 3.  Choosing a serializer -/

inductive Serializer where
  | textUtf8
  | bytesV1
  | jsonStrict
  | tupleTree
  /-- The serializer of a dataclass or of a third-party type. -/
  | foreign (id : String)
  deriving DecidableEq

def Serializer.id : Serializer → String
  | textUtf8 => "text.utf8.v1"
  | bytesV1 => "bytes.v1"
  | jsonStrict => "json.strict.v1"
  | tupleTree => "tuple.tree.v1"
  | foreign id => id

/-- The serializer, unless there is a reason to exclude the value. -/
def admitted (serializer : Serializer) : Option String → Except String Serializer
  | none => .ok serializer
  | some reason => .error reason

/-- A numpy array of plain numbers. -/
def Heap.isPlainArray (heap : Heap) : Obj → Bool
  | .ref id =>
      match heap id with
      | .ndarray hasObject => !hasObject
      | _ => false
  | .scalar _ => false

/-- `_serializer_for`; `available` is the registry of this runtime. -/
def serializerFor (available : String → Bool) (heap : Heap) (limits : CapsuleLimits) (value : Obj) :
    Except String Serializer :=
  let strict := admitted .jsonStrict ((strictJsonWalker limits.maxDepth
    limits.maxContainerItems).analysis heap.shape (heap.shape value))
  let portable (item : Shape Obj) (serializer : Serializer) :=
    admitted serializer ((portableTreeWalker limits.maxDepth limits.maxContainerItems).analysis
      heap.shape item)
  match value with
  | .scalar (.str _) => .ok .textUtf8
  | .scalar (.bytes _) => .ok .bytesV1
  | .scalar _ => strict
  | .ref id =>
      match heap id with
      | .sequence true items => portable (.sequence true (some id) items) .tupleTree
      | .dataclass importable allInit fields =>
          if !importable then .error "dataclass_type_not_importable"
          else if !allInit then .error "dataclass_non_init_field_unsupported"
          else portable (.sequence true none fields) (.foreign "dataclass.fields.v1")
      | .ndarray hasObject =>
          if available "numpy.npy.v1" then
            if hasObject then .error "numpy_object_dtype_unsupported"
            else .ok (.foreign "numpy.npy.v1")
          else strict
      | .pandas => if available "pandas.arrow.v1" then .ok (.foreign "pandas.arrow.v1") else strict
      | .arrow => if available "arrow.ipc.v1" then .ok (.foreign "arrow.ipc.v1") else strict
      | .dict entries _ =>
          if !entries.isEmpty && available "safetensors.numpy.v1" &&
              entries.all (fun e => e.1.text?.isSome && heap.isPlainArray e.2) then
            .ok (.foreign "safetensors.numpy.v1")
          else strict
      | .sequence false _ | .foreign _ => strict

/-- `part in s` -/
def contains (s part : String) : Bool := decide (part.toList <:+: s.toList)

def startsWith (s start : String) : Bool := start.toList.isPrefixOf s.toList

def databaseModulePrefixes : List String :=
  ["asyncpg", "duckdb", "psycopg", "pymongo", "redis", "sqlite3", "sqlalchemy"]

/-- `_excluded_reason` of a type. -/
def ForeignType.excludedReason (type : ForeignType) : String :=
  if type.isModule then "module"
  else if ["kernel_runtime.worker_bridge", "kernel_runtime.bridge"].contains type.moduleName ||
      contains type.className "capabilityproxy" then "service_proxy"
  else if startsWith type.moduleName "socket" ||
      ["socket", "websocket"].contains type.className then "socket"
  else if startsWith type.moduleName "subprocess" ||
      ["popen", "process", "processpoolexecutor"].contains type.className then "process"
  else if databaseModulePrefixes.any (startsWith type.moduleName) ||
      ["connection", "cursor", "session"].any (contains type.className) &&
        databaseModulePrefixes.any (contains type.moduleName) then "database_client"
  else if ["anthropic", "google.generativeai", "openai", "transformers"].any
      (startsWith type.moduleName) then "model_client"
  else if ["playwright", "pywinauto", "selenium", "uiautomation", "win32com"].any
      (contains type.moduleName) then "browser_or_desktop_handle"
  else if type.callable then "callable"
  else if ["asyncio", "threading", "multiprocessing", "io"].any (contains type.moduleName) then
    "live_resource"
  else if type.mutableBinary then "mutable_binary_unsupported"
  else "unsupported_type"

/-- `_excluded_reason`; the types of the plain containers and of arrays match no marker. -/
def Heap.excludedReason (heap : Heap) : Obj → String
  | .scalar _ => "unsupported_type"
  | .ref id =>
      match heap id with
      | .foreign type => type.excludedReason
      | _ => "unsupported_type"

/-! ## 4.  Encoding -/

/-- The tree of a value, read to a depth: nothing when there is more below, or when a
key or a value has no place in a tree. -/
def read {α : Type} (view : α → Shape α) : Nat → Shape α → Option Tree
  | 0, _ => none
  | left + 1, item =>
      match item with
      | .scalar v => some (.leaf v)
      | .sequence tuple _ items =>
          (items.mapM fun x => read view left (view x)).map (.sequence tuple)
      | .dict _ entries =>
          (entries.mapM fun (e : Option CodeText × α) => e.1.bind fun k =>
            (read view left (view e.2)).map (k, ·)).map .dict
      | .other => none

/-- A key of a document. -/
def key (s : String) : CodeText := CodeText.ofString s

/-- A text in a document. -/
def text (s : String) : Tree := .leaf (.str (CodeText.ofString s))

/-- `{"kind": kind, "items": items}` -/
def itemsNode (kind : String) (items : List Tree) : Tree :=
  .dict [(key "kind", text kind), (key "items", .sequence false items)]

/-- `[key, node]` -/
def entryNode (e : CodeText × Option Tree) : Option Tree :=
  e.2.map fun node => .sequence false [.leaf (.str e.1), node]

/-- `_portable_tree_encode` -/
def portableTreeEncode : Tree → Option Tree :=
  Tree.fold
    (fun v =>
      match v with
      | .bytes _ => none
      | v => some (.dict [(key "kind", text "value"), (key "value", .leaf v)]))
    (fun tuple items => (items.mapM id).map (itemsNode (if tuple then "tuple" else "list")))
    fun entries => ((Dict.sort entries).mapM entryNode).map (itemsNode "dict")

/-- The library: the JSON encoder of the module (`ensure_ascii=False`, sorted keys)
with the pieces it yields, `json.loads`, and `str(value)`. -/
structure JsonLibrary where
  iterencode : Tree → List CodeText
  loads : CodeText → Option Tree
  str : Tree → CodeText

section Encode

variable (L : JsonLibrary) (other : String → Obj → List (Option ByteArray))

/-- The document of a tuple. -/
def tupleDocument (root : Tree) : Tree :=
  .dict [(key "schema", text "variant1.tuple-tree.v1"), (key "root", root)]

/-- The chunks of a text, up to one that raises. -/
def utf8Chunks : Option (List CodeText) → List (Option ByteArray)
  | some pieces => pieces.map CodeText.encode
  | none => [none]

/-- `_encoded_chunks`, for a value that was analysed. -/
def encodedChunks (heap : Heap) (limits : CapsuleLimits) (value : Obj) :
    Serializer → List (Option ByteArray)
  | .bytesV1 =>
      match value with
      | .scalar (.bytes data) => [some data]
      | _ => [none]
  | .textUtf8 =>
      match value with
      | .scalar (.str s) => utf8Chunks (some (slices (64 * 1024) s))
      | _ => [none]
  | .jsonStrict =>
      utf8Chunks ((read heap.shape (limits.maxDepth + 1) (heap.shape value)).map L.iterencode)
  | .tupleTree =>
      utf8Chunks (((read heap.shape (limits.maxDepth + 1) (heap.shape value)).bind
        portableTreeEncode).map fun root => L.iterencode (tupleDocument root))
  | .foreign id => other id value

/-- The loop of `_capture_encoding`: the bytes, or the error and the size so far. -/
def retain (byteLimit : Nat) :
    Nat → ByteArray → List (Option ByteArray) → Except (String × Nat) ByteArray
  | _, retained, [] => .ok retained
  | total, _, none :: _ => .error ("serialization_error", total)
  | total, retained, some chunk :: chunks =>
      if byteLimit < total + chunk.size then
        .error ("capsule_value_too_large", total + chunk.size)
      else retain byteLimit (total + chunk.size) (retained ++ chunk) chunks

/-- `_capture_encoding` -/
def captureEncoding (heap : Heap) (limits : CapsuleLimits) (value : Obj) (serializer : Serializer) :
    Except (String × Nat) ByteArray :=
  retain limits.maxValueBytes 0 ByteArray.empty (encodedChunks L other heap limits value serializer)

/-- What a capture says about one value. -/
inductive CaptureOutcome where
  | captured (serializer : Serializer) (raw : ByteArray)
  | excluded (reason : String)
  /-- The capture is given up. -/
  | tooLarge (measured : Nat)
  deriving DecidableEq

/-- `capture`, for one value. -/
def captureValue (available : String → Bool) (heap : Heap) (limits : CapsuleLimits) (value : Obj) :
    CaptureOutcome :=
  match serializerFor available heap limits value with
  | .error reason =>
      .excluded (if reason = "unsupported_type" then heap.excludedReason value else reason)
  | .ok serializer =>
      match captureEncoding L other heap limits value serializer with
      | .ok raw => .captured serializer raw
      | .error (reason, measured) =>
          if reason = "capsule_value_too_large" then .tooLarge measured else .excluded reason

/-! ## 5.  Restoring -/

/-- `bool(value)` -/
def truthy : Tree → Bool
  | .leaf v =>
      match v with
      | .none => false
      | .bool b => b
      | .int i => i != 0
      | .float x => x.value != 0
      | .nonFinite _ => true
      | .str s => !s.isEmpty
      | .bytes data => !data.isEmpty
  | .sequence _ items => !items.isEmpty
  | .dict entries => !entries.isEmpty

/-- `str(node.get("kind") or "")` -/
def kindOf (node : List (CodeText × Tree)) : CodeText :=
  match Dict.get? node (key "kind") with
  | some (.leaf (.str s)) => s
  | some v => if truthy v then L.str v else []
  | none => []

/-- An entry of a dictionary. -/
def decodeEntry (decode : Tree → Except String Tree) : Tree → Except String (CodeText × Tree)
  | .sequence false [.leaf (.str k), value] => (decode value).map (k, ·)
  | _ => .error "portable tree dictionary entry is invalid"

/-- `_portable_tree_decode`, to a depth. -/
def portableTreeDecode : Nat → Tree → Except String Tree
  | left + 1, .dict node =>
      if kindOf L node = key "value" then
        match (Dict.get? node (key "value")).getD (.leaf .none) with
        | .leaf (.nonFinite _) => .error "portable tree contains a non-finite float"
        | .leaf (.bytes _) => .error "portable tree primitive is invalid"
        | .leaf v => .ok (.leaf v)
        | _ => .error "portable tree primitive is invalid"
      else
        match Dict.get? node (key "items") with
        | some (.sequence false items) =>
            if kindOf L node = key "tuple" then
              (items.mapM (portableTreeDecode left)).map (.sequence true)
            else if kindOf L node = key "list" then
              (items.mapM (portableTreeDecode left)).map (.sequence false)
            else if kindOf L node = key "dict" then
              (items.mapM (decodeEntry (portableTreeDecode left))).map
                fun entries => .dict (Dict.merge [] entries)
            else .error "portable tree kind is unsupported"
        | _ => .error "portable tree items are invalid"
  | _, _ => .error "portable tree node is not an object"

/-- `document.get("root")`, decoded: no node is deeper than the document. -/
def decodeRoot (document : List (CodeText × Tree)) : Except String Tree :=
  let root := (Dict.get? document (key "root")).getD (.leaf .none)
  portableTreeDecode L (root.depth + 1) root

/-- `json.loads(raw.decode("utf-8", errors="strict"))` -/
def loadDocument (raw : ByteArray) : Except String Tree :=
  match CodeText.decode raw with
  | none => .error "invalid utf-8"
  | some s =>
      match L.loads s with
      | none => .error "invalid json"
      | some value => .ok value

def isText (value : Option Tree) (s : String) : Bool :=
  match value with
  | some (.leaf (.str t)) => t == CodeText.ofString s
  | _ => false

/-- The document of a tuple, restored. -/
def restoreTuple (name : String) : Tree → Except String Tree
  | .dict document =>
      if isText (Dict.get? document (key "schema")) "variant1.tuple-tree.v1" then
        match decodeRoot L document with
        | .error e => .error e
        | .ok (.sequence true items) => .ok (.sequence true items)
        | .ok _ => .error s!"kernel capsule variable '{name}' did not restore as a tuple"
      else .error s!"kernel capsule variable '{name}' has an invalid tuple document"
  | _ => .error s!"kernel capsule variable '{name}' has an invalid tuple document"

/-- `restore`, for one value whose bytes passed the integrity check; `foreign` restores
the other types. -/
def restoreValue (foreign : String → ByteArray → Except String Tree) (name : String)
    (serializer : Serializer) (raw : ByteArray) : Except String Tree :=
  match serializer with
  | .textUtf8 =>
      match CodeText.decode raw with
      | some s => .ok (.leaf (.str s))
      | none => .error "invalid utf-8"
  | .bytesV1 => .ok (.leaf (.bytes raw))
  | .jsonStrict =>
      match loadDocument L raw with
      | .error e => .error e
      | .ok value =>
          if strictJsonValue value then .ok value
          else .error s!"kernel capsule variable '{name}' is not strict JSON"
  | .tupleTree =>
      match loadDocument L raw with
      | .error e => .error e
      | .ok document => restoreTuple L name document
  | .foreign id => foreign id raw

end Encode

end KernelRuntime
end VariantOne
