import VariantOne.Core.Document
import VariantOne.Core.Dynamic
import VariantOne.Lib.Base64

/-!
# Values on the wire

A capability result travels to the kernel as JSON.  `pack_value` writes bytes as base64 under a key of their
own, escapes a dictionary that looks like that, and writes a collection of browser handles with what the
handles share in templates; `unpack_value` undoes it.

A dictionary under the schema of a packed collection is not escaped, and what stands inside the handles of a
collection is not packed.  `Portable` leaves the first out and asks of the second that it is JSON.  What is
portable is packed to JSON and comes back as it was, up to the order of the keys of a dictionary, which
`PyValue.canon` takes away: `unpack_pack`.
-/

namespace VariantOne

/-! ## The keys of a dictionary in no order -/

mutual

/-- The value with the keys of every dictionary sorted: two values are equal to the host when this is. -/
def PyValue.canon : PyValue → PyValue
  | .list vs => .list (PyValue.canonItems vs)
  | .tuple vs => .tuple (PyValue.canonItems vs)
  | .dict es => .dict (Dict.sort (PyValue.canonEntries es))
  | v => v

/-- `PyValue.canon`, item by item. -/
def PyValue.canonItems : List PyValue → List PyValue
  | [] => []
  | v :: vs => v.canon :: PyValue.canonItems vs

/-- `PyValue.canon`, entry by entry. -/
def PyValue.canonEntries : PyDict → PyDict
  | [] => []
  | (k, v) :: es => (k, v.canon) :: PyValue.canonEntries es

end

namespace KernelRuntime
namespace WireValues

/-- The schema of a browser result. -/
def browser : String := "variant1.browser-observation-result.v1"

/-- The schema of a packed browser result. -/
def wireBrowser : String := "variant1.browser-observation-wire.v1"

/-- The metadata that handles do not share. -/
def variableMetadata : List String := ["backend_ref", "name", "title", "url", "role", "actions"]

/-- `canonical_json` -/
def canonicalJson (v : PyValue) : Except Raised (List Char) := (VariantOne.strictJsonValue v "$").map Json.dumps

/-- The schema of a dictionary, if it is a text. -/
def schemaOf (entries : PyDict) : Option String := (Dict.get? entries "schema").bind PyValue.str?

/-- Whether a dictionary has the one key of packed bytes or of an escaped dictionary. -/
def marked (entries : PyDict) : Bool :=
  Dict.keys entries == ["$variant1_bytes"] || Dict.keys entries == ["$variant1_literal"]

/-! ## 1.  Packing -/

/-- An item that is a handle, and its metadata. -/
def handleOf : PyValue → Option (PyDict × PyDict)
  | .dict [(key, .dict handle)] =>
      if key = "$variant1_handle" ∧ "id" ∈ Dict.keys handle then
        match Dict.get? handle "metadata" with
        | some (.dict metadata) => some (handle, metadata)
        | _ => none
      else none
  | _ => none

/-- What a handle may share with others. -/
def shared (handle metadata : PyDict) : PyDict :=
  Dict.set (Dict.restrict (fun k => k != "id" && k != "metadata") handle) "metadata"
    (.dict (Dict.restrict (fun k => !variableMetadata.contains k) metadata))

/-- The metadata that a handle does not share. -/
def unique (metadata : PyDict) : PyDict := Dict.restrict variableMetadata.contains metadata

/-- The state of the loop over the handles. -/
structure Compacted where
  templates : List PyDict
  indexes : List (List Char × Nat)
  compact : List PyValue

/-- `indexes[key] = len(templates); templates.append(shared)`, for a new key -/
def Compacted.admitShared (c : Compacted) (key : List Char) (template : PyDict) : Compacted :=
  match Dict.get? c.indexes key with
  | some _ => c
  | none =>
      { c with
        templates := c.templates ++ [template]
        indexes := Dict.set c.indexes key c.templates.length }

/-- The compact form of a handle. -/
def compactItem (index : Nat) (handle metadata : PyDict) : PyValue :=
  .dict [("template", .int index), ("id", (Dict.get? handle "id").getD .none),
    ("metadata", .dict (unique metadata))]

/-- The loop over the handles: it stops at an item that is none. -/
def compactItems : List PyValue → Compacted → Except Raised (Option Compacted)
  | [], c => .ok (some c)
  | item :: items, c =>
      match handleOf item with
      | none => .ok none
      | some (handle, metadata) =>
          match canonicalJson (.dict (shared handle metadata)) with
          | .error e => .error e
          | .ok key =>
              let c := c.admitShared key (shared handle metadata)
              compactItems items
                { c with
                  compact := c.compact ++ [compactItem ((Dict.get? c.indexes key).getD 0) handle metadata] }

/-- The handles of a dictionary that is packed as a collection. -/
def collection (entries : PyDict) : Except Raised (Option Compacted) :=
  match Dict.get? entries "elements" with
  | some (.list items) =>
      if schemaOf entries = some browser ∧ 1 < items.length then compactItems items ⟨[], [], []⟩ else .ok none
  | _ => .ok none

/-- The entries of a comprehension, up to the first that raises. -/
def sequence {ε : Type} : List (String × Except ε PyValue) → Except ε PyDict
  | [] => .ok []
  | (_, .error e) :: _ => .error e
  | (k, .ok v) :: rest => (sequence rest).map ((k, v) :: ·)

mutual

/-- `pack_value` -/
def packValue : PyValue → Except Raised PyValue
  | .bytes data => .ok (.dict [("$variant1_bytes", .str (String.ofList (Base64.encode data)))])
  | .list items => (packItems items).map .list
  | .dict entries =>
      if marked entries then
        (sequence (packEntries entries)).map fun packed => .dict [("$variant1_literal", .dict packed)]
      else
        match collection entries with
        | .error e => .error e
        | .ok none => (sequence (packEntries entries)).map .dict
        | .ok (some c) =>
            (sequence ((packEntries entries).filter fun e => e.1 != "elements")).map fun packed =>
              .dict [("schema", .str wireBrowser), ("value", .dict packed),
                ("templates", .list (c.templates.map .dict)), ("elements", .list c.compact)]
  | v => .ok v

/-- `pack_value`, item by item. -/
def packItems : List PyValue → Except Raised (List PyValue)
  | [] => .ok []
  | v :: vs =>
      match packValue v with
      | .error e => .error e
      | .ok w => (packItems vs).map (w :: ·)

/-- `pack_value`, of the value of each entry. -/
def packEntries : PyDict → List (String × Except Raised PyValue)
  | [] => []
  | (k, v) :: es => (k, packValue v) :: packEntries es

end

/-! ## 2.  Unpacking -/

/-- `items[index]` of a list -/
def itemAt (items : List PyValue) : PyValue → Option PyValue
  | .int i =>
      if 0 ≤ i then items[i.toNat]?
      else if -i ≤ items.length then items[items.length - (-i).toNat]? else none
  | .bool b => items[if b then 1 else 0]?
  | _ => none

/-- A handle put together from its template and its compact form, unless that raises. -/
def rebuild (template item : PyDict) : Option PyValue :=
  match Dict.get? item "id", Dict.get? template "metadata", Dict.get? item "metadata" with
  | some id, some (.dict common), some (.dict own) =>
      some (.dict [("$variant1_handle", .dict (Dict.set (Dict.set template "id" id) "metadata"
        (.dict (Dict.merge common own))))])
  | _, _, _ => none

/-- One handle of a packed collection, unless it raises. -/
def restore (templates : List PyValue) : PyValue → Option PyValue
  | .dict item =>
      match (Dict.get? item "template").bind (itemAt templates) with
      | some (.dict template) => rebuild template item
      | _ => none
  | _ => none

/-- The handles of a packed collection, in their order. -/
def restoreAll (templates : List PyValue) : List PyValue → Option (List PyValue)
  | [] => some []
  | item :: items => do
      let handle ← restore templates item
      let handles ← restoreAll templates items
      some (handle :: handles)

/-- A packed collection, its `value` being unpacked. -/
def unpackCollection (entries : PyDict) (value : Option PyValue) : Option PyValue :=
  match value, Dict.get? entries "templates", Dict.get? entries "elements" with
  | some (.dict result), some (.list templates), some (.list items) =>
      (restoreAll templates items).map fun handles => .dict (Dict.set result "elements" (.list handles))
  | _, _, _ => none

/-- `base64.b64decode(value, validate=True)` -/
def decodeBytes : Option PyValue → Option PyValue
  | some (.str s) => (Base64.decode s.toList).map .bytes
  | some (.bytes data) => (Base64.decode (data.map fun b => Char.ofNat b.toNat)).map .bytes
  | _ => none

/-- The entries of a comprehension, unless one raises. -/
def sequence? : List (String × Option PyValue) → Option PyDict
  | [] => some []
  | (_, none) :: _ => none
  | (k, some v) :: rest => (sequence? rest).map ((k, v) :: ·)

mutual

/-- `unpack_value`, unless it raises. -/
def unpackValue : PyValue → Option PyValue
  | .list items => (unpackItems items).map .list
  | .dict entries =>
      if Dict.keys entries = ["$variant1_literal"] then unpackLiteral entries
      else if Dict.keys entries = ["$variant1_bytes"] then decodeBytes (Dict.get? entries "$variant1_bytes")
      else if schemaOf entries = some wireBrowser then
        unpackCollection entries ((Dict.get? (unpackEntries entries) "value").join)
      else (sequence? (unpackEntries entries)).map .dict
  | v => some v

/-- `unpack_value`, item by item. -/
def unpackItems : List PyValue → Option (List PyValue)
  | [] => some []
  | v :: vs => do
      let w ← unpackValue v
      let ws ← unpackItems vs
      some (w :: ws)

/-- An escaped dictionary. -/
def unpackLiteral : PyDict → Option PyValue
  | (_, .dict entries) :: _ => (sequence? (unpackEntries entries)).map .dict
  | _ => none

/-- `unpack_value`, of the value of each entry. -/
def unpackEntries : PyDict → List (String × Option PyValue)
  | [] => []
  | (k, v) :: es => (k, unpackValue v) :: unpackEntries es

end

/-! ## 3.  Equal dictionaries -/

theorem canonItems_eq_map (vs : List PyValue) : PyValue.canonItems vs = vs.map PyValue.canon := by
  induction vs with
  | nil => rfl
  | cons v vs ih => rw [PyValue.canonItems, ih, List.map_cons]

theorem canonEntries_eq_map (es : PyDict) : PyValue.canonEntries es = es.map fun p => (p.1, p.2.canon) := by
  induction es with
  | nil => rfl
  | cons p es ih => rw [PyValue.canonEntries, ih, List.map_cons]

theorem get?_canonEntries (es : PyDict) (k : String) :
    Dict.get? (PyValue.canonEntries es) k = (Dict.get? es k).map PyValue.canon := by
  induction es with
  | nil => rfl
  | cons p es ih =>
      obtain ⟨k', v⟩ := p
      rw [PyValue.canonEntries, Dict.get?_cons, Dict.get?_cons, ih]
      split <;> rfl

theorem wf_canonEntries {es : PyDict} (h : Dict.WF es) : Dict.WF (PyValue.canonEntries es) := by
  have hkeys : Dict.keys (PyValue.canonEntries es) = Dict.keys es := by
    rw [canonEntries_eq_map, Dict.keys, List.map_map]
    rfl
  rw [Dict.WF, hkeys]
  exact h

/-- Dictionaries are equal when every key finds the same in them. -/
theorem canon_dict_eq_iff {d e : PyDict} (hd : Dict.WF d) (he : Dict.WF e) :
    (PyValue.dict d).canon = (PyValue.dict e).canon ↔
      ∀ k, (Dict.get? d k).map PyValue.canon = (Dict.get? e k).map PyValue.canon := by
  rw [PyValue.canon, PyValue.canon, PyValue.dict.injEq]
  constructor
  · intro h k
    rw [← get?_canonEntries, ← get?_canonEntries, ← Dict.get?_sort (PyValue.canonEntries d), h,
      Dict.get?_sort]
  · intro h
    refine (wf_canonEntries hd).sort_eq_of_perm ((List.perm_ext_iff_of_nodup (wf_canonEntries hd).nodup
      (wf_canonEntries he).nodup).mpr fun p => ?_)
    obtain ⟨k, v⟩ := p
    rw [← (wf_canonEntries hd).get?_eq_some_iff, ← (wf_canonEntries he).get?_eq_some_iff, get?_canonEntries,
      get?_canonEntries, h k]

/-- Only a dictionary is equal to one. -/
theorem exists_dict_of_canon {v : PyValue} {e : PyDict} (h : v.canon = (PyValue.dict e).canon) :
    ∃ d, v = .dict d := by
  cases v with
  | dict d => exact ⟨d, rfl⟩
  | _ => simp [PyValue.canon] at h

mutual

/-- JSON is its own strict value. -/
theorem strictJsonValue_of_plain {v : PyValue} (h : v.plain = true) (path : String) :
    ∃ j, VariantOne.strictJsonValue v path = .ok j ∧ j.toPy = v := by
  cases v with
  | none => exact ⟨.null, rfl, rfl⟩
  | bool b => exact ⟨.bool b, rfl, rfl⟩
  | int i => exact ⟨.int i, rfl, rfl⟩
  | float x => exact ⟨.float x, rfl, rfl⟩
  | str s => exact ⟨.str s, rfl, rfl⟩
  | list vs =>
      obtain ⟨js, hjs, rfl⟩ := strictItems_of_plain (by simpa [PyValue.plain] using h) path 0
      exact ⟨.arr js, by rw [VariantOne.strictJsonValue, hjs]; rfl, rfl⟩
  | dict es =>
      obtain ⟨js, hjs, rfl⟩ := strictEntries_of_plain (by
        rw [PyValue.plain, Bool.and_eq_true] at h
        exact h.2) path
      exact ⟨.obj js, by rw [VariantOne.strictJsonValue, hjs]; rfl, rfl⟩
  | nonFinite text => simp [PyValue.plain] at h
  | bytes data => simp [PyValue.plain] at h
  | tuple vs => simp [PyValue.plain] at h
  | record v => simp [PyValue.plain] at h
  | foreign name => simp [PyValue.plain] at h

theorem strictItems_of_plain {vs : List PyValue} (h : PyValue.plainItems vs = true) (path : String)
    (index : Nat) : ∃ js, strictItems vs path index = .ok js ∧ itemsToPy js = vs := by
  cases vs with
  | nil => exact ⟨[], rfl, rfl⟩
  | cons v vs =>
      rw [PyValue.plainItems, Bool.and_eq_true] at h
      obtain ⟨j, hj, rfl⟩ := strictJsonValue_of_plain h.1 s!"{path}[{index}]"
      obtain ⟨js, hjs, rfl⟩ := strictItems_of_plain h.2 path (index + 1)
      exact ⟨j :: js, by rw [strictItems, hj]; dsimp only; rw [hjs]; rfl, rfl⟩

theorem strictEntries_of_plain {es : PyDict} (h : PyValue.plainEntries es = true) (path : String) :
    ∃ js, strictEntries es path = .ok js ∧ entriesToPy js = es := by
  cases es with
  | nil => exact ⟨[], rfl, rfl⟩
  | cons p es =>
      obtain ⟨k, v⟩ := p
      rw [PyValue.plainEntries, Bool.and_eq_true] at h
      obtain ⟨j, hj, rfl⟩ := strictJsonValue_of_plain h.1 s!"{path}.{k}"
      obtain ⟨js, hjs, rfl⟩ := strictEntries_of_plain h.2 path
      exact ⟨(k, j) :: js, by rw [strictEntries, hj]; dsimp only; rw [hjs]; rfl, rfl⟩

end

mutual

theorem toPy_canon (j : Json) : j.canon.toPy = j.toPy.canon := by
  cases j with
  | arr vs => rw [Json.canon, Json.toPy, Json.toPy, PyValue.canon, itemsToPy_canonItems vs]
  | obj es =>
      rw [Json.canon, Json.toPy, Json.toPy, PyValue.canon, ← entriesToPy_canonEntries es, entriesToPy_eq_map,
        entriesToPy_eq_map]
      exact congrArg PyValue.dict (Dict.sort_map (fun _ v => Json.toPy v) _).symm
  | _ => rfl

theorem itemsToPy_canonItems (vs : List Json) :
    itemsToPy (Json.canonItems vs) = PyValue.canonItems (itemsToPy vs) := by
  cases vs with
  | nil => rfl
  | cons v vs =>
      rw [Json.canonItems, itemsToPy, itemsToPy, PyValue.canonItems, toPy_canon v, itemsToPy_canonItems vs]

theorem entriesToPy_canonEntries (es : List (String × Json)) :
    entriesToPy (Json.canonEntries es) = PyValue.canonEntries (entriesToPy es) := by
  cases es with
  | nil => rfl
  | cons p es =>
      obtain ⟨k, v⟩ := p
      rw [Json.canonEntries, entriesToPy, entriesToPy, PyValue.canonEntries, toPy_canon v,
        entriesToPy_canonEntries es]

end

/-- JSON with the same canonical text is equal. -/
theorem canon_eq_of_canonicalJson {v w : PyValue} {key : List Char} (hv : v.plain = true)
    (hw : w.plain = true) (hkey : canonicalJson v = .ok key) (hkey' : canonicalJson w = .ok key) :
    v.canon = w.canon := by
  obtain ⟨j, hj, rfl⟩ := strictJsonValue_of_plain hv "$"
  obtain ⟨j', hj', rfl⟩ := strictJsonValue_of_plain hw "$"
  rw [canonicalJson, hj] at hkey
  rw [canonicalJson, hj'] at hkey'
  have hdumps : Json.dumps j = Json.dumps j' := (Except.ok.inj hkey).trans (Except.ok.inj hkey').symm
  rw [← toPy_canon, ← toPy_canon, Json.dumps_eq_dumps_iff.mp hdumps]

/-! ## 4.  Handles -/

/-- A dictionary is JSON when its values are. -/
theorem plain_dict_iff {es : PyDict} :
    (PyValue.dict es).plain = true ↔ Dict.WF es ∧ ∀ p ∈ es, p.2.plain = true := by
  have hentries : PyValue.plainEntries es = true ↔ ∀ p ∈ es, p.2.plain = true := by
    induction es with
    | nil => simp [PyValue.plainEntries]
    | cons p es ih =>
        obtain ⟨k, v⟩ := p
        rw [PyValue.plainEntries, Bool.and_eq_true, ih, List.forall_mem_cons]
  rw [PyValue.plain, Bool.and_eq_true, decide_eq_true_eq, hentries]

theorem plain_list_iff {vs : List PyValue} : (PyValue.list vs).plain = true ↔ ∀ v ∈ vs, v.plain = true := by
  rw [PyValue.plain]
  induction vs with
  | nil => simp [PyValue.plainItems]
  | cons v vs ih => rw [PyValue.plainItems, Bool.and_eq_true, ih, List.forall_mem_cons]

theorem plain_restrict {es : PyDict} (h : (PyValue.dict es).plain = true) (p : String → Bool) :
    (PyValue.dict (Dict.restrict p es)).plain = true := by
  rw [plain_dict_iff] at h ⊢
  exact ⟨h.1.restrict p, fun q hq => h.2 q (List.mem_of_mem_filter hq)⟩

theorem plain_set {es : PyDict} (h : (PyValue.dict es).plain = true) (k : String) {v : PyValue}
    (hv : v.plain = true) : (PyValue.dict (Dict.set es k v)).plain = true := by
  rw [plain_dict_iff] at h ⊢
  have hwf := h.1.set k v
  refine ⟨hwf, fun q hq => ?_⟩
  obtain ⟨k', v'⟩ := q
  have hget := hwf.get?_eq_some_iff.mpr hq
  by_cases hk : k' = k
  · subst hk
    rw [Dict.get?_set_self] at hget
    rw [← Option.some.inj hget]
    exact hv
  · rw [Dict.get?_set_of_ne (Ne.symm hk)] at hget
    exact h.2 (k', v') (Dict.mem_of_get? hget)

/-- A handle: its item, an `id`, and its metadata. -/
structure IsHandle (item : PyValue) (handle metadata : PyDict) : Prop where
  item : item = .dict [("$variant1_handle", .dict handle)]
  id : ∃ id, Dict.get? handle "id" = some id
  metadata : Dict.get? handle "metadata" = some (.dict metadata)

theorem handleOf_eq_some {item : PyValue} {handle metadata : PyDict}
    (h : handleOf item = some (handle, metadata)) : IsHandle item handle metadata := by
  unfold handleOf at h
  split at h
  · next key handle' =>
    split at h
    · next hkey =>
      split at h
      · next metadata' hmetadata =>
        obtain ⟨rfl, rfl⟩ := Prod.mk.inj (Option.some.inj h)
        obtain ⟨id, hid⟩ := Option.ne_none_iff_exists'.mp fun hnone => Dict.get?_eq_none_iff.mp hnone hkey.2
        exact ⟨by rw [hkey.1], ⟨id, hid⟩, hmetadata⟩
      · cases h
    · cases h
  · cases h

theorem plain_shared {handle metadata : PyDict} (h : (PyValue.dict handle).plain = true)
    (hm : (PyValue.dict metadata).plain = true) : (PyValue.dict (shared handle metadata)).plain = true :=
  plain_set (plain_restrict h _) _ (plain_restrict hm _)

/-- What a key finds in a handle that is put together again. -/
theorem canon_merge {metadata common : PyDict} (hm : Dict.WF metadata) (hcommon : Dict.WF common)
    (hequal : (PyValue.dict common).canon =
      (PyValue.dict (Dict.restrict (fun k => !variableMetadata.contains k) metadata)).canon) :
    (PyValue.dict (Dict.merge common (unique metadata))).canon = (PyValue.dict metadata).canon := by
  have hown : Dict.WF (unique metadata) := hm.restrict _
  have hfinds := (canon_dict_eq_iff hcommon (hm.restrict _)).mp hequal
  have hdisjoint : ∀ k ∈ Dict.keys (unique metadata), k ∉ Dict.keys common := by
    intro k hk hkc
    have hvariable : variableMetadata.contains k = true := (Dict.mem_keys_restrict.mp hk).2
    have hnone := hfinds k
    rw [Dict.get?_restrict, hvariable, Bool.not_true, if_neg Bool.false_ne_true, Option.map_none,
      Option.map_eq_none_iff] at hnone
    exact Dict.get?_eq_none_iff.mp hnone hkc
  rw [Dict.merge_of_disjoint hown hdisjoint]
  have hwf : Dict.WF (common ++ unique metadata) := by
    rw [← Dict.merge_of_disjoint hown hdisjoint]
    exact hcommon.merge _
  refine (canon_dict_eq_iff hwf hm).mpr fun k => ?_
  have hk := hfinds k
  rw [Dict.get?_restrict] at hk
  rw [Dict.get?_append, unique, Dict.get?_restrict]
  cases hvariable : variableMetadata.contains k with
  | true =>
      rw [hvariable, Bool.not_true, if_neg Bool.false_ne_true, Option.map_none, Option.map_eq_none_iff] at hk
      rw [hk, if_pos rfl, Option.none_or]
  | false =>
      rw [hvariable, Bool.not_false, if_pos rfl] at hk
      rw [if_neg Bool.false_ne_true, Option.or_none]
      exact hk

/-- **A handle is restored** from a template that equals what it shares. -/
theorem restore_compactItem {item : PyValue} {handle metadata template : PyDict} {templates : List PyValue}
    {index : Nat} (hitem : IsHandle item handle metadata) (hplain : (PyValue.dict handle).plain = true)
    (htemplate : (PyValue.dict template).plain = true) (hindex : templates[index]? = some (.dict template))
    (hequal : (PyValue.dict template).canon = (PyValue.dict (shared handle metadata)).canon) :
    ∃ restored, restore templates (compactItem index handle metadata) = some restored ∧
      restored.canon = item.canon := by
  obtain ⟨id, hid⟩ := hitem.id
  have hhandle := (plain_dict_iff.mp hplain).1
  have hmetadata : (PyValue.dict metadata).plain = true :=
    (plain_dict_iff.mp hplain).2 _ (Dict.mem_of_get? hitem.metadata)
  have hshared := plain_shared hplain hmetadata
  have hfinds := (canon_dict_eq_iff (plain_dict_iff.mp htemplate).1 (plain_dict_iff.mp hshared).1).mp hequal
  have hcommon := hfinds "metadata"
  rw [shared, Dict.get?_set_self] at hcommon
  obtain ⟨common', hget, hcanon⟩ := Option.map_eq_some_iff.mp hcommon
  obtain ⟨common, rfl⟩ := exists_dict_of_canon hcanon
  have hcommonWf := (plain_dict_iff.mp ((plain_dict_iff.mp htemplate).2 _ (Dict.mem_of_get? hget))).1
  have hmerge := canon_merge (plain_dict_iff.mp hmetadata).1 hcommonWf hcanon
  have hat : itemAt templates (.int index) = some (.dict template) := by
    rw [itemAt, if_pos (Int.natCast_nonneg index), Int.toNat_natCast, hindex]
  refine ⟨.dict [("$variant1_handle", .dict (Dict.set (Dict.set template "id" id) "metadata"
    (.dict (Dict.merge common (unique metadata)))))], ?_, ?_⟩
  · have hfound : (Dict.get? [("template", PyValue.int index), ("id", (Dict.get? handle "id").getD .none),
        ("metadata", .dict (unique metadata))] "template").bind (itemAt templates) = some (.dict template) :=
      hat
    rw [compactItem, restore, hfound, hid]
    dsimp only
    rw [rebuild, hget]
    rfl
  · have hwf : Dict.WF (Dict.set (Dict.set template "id" id) "metadata"
        (.dict (Dict.merge common (unique metadata)))) := ((plain_dict_iff.mp htemplate).1.set _ _).set _ _
    have hrestored : (PyValue.dict (Dict.set (Dict.set template "id" id) "metadata"
        (.dict (Dict.merge common (unique metadata))))).canon = (PyValue.dict handle).canon := by
      refine (canon_dict_eq_iff hwf hhandle).mpr fun k => ?_
      by_cases hk : k = "metadata"
      · subst hk
        rw [Dict.get?_set_self, hitem.metadata, Option.map_some, Option.map_some, hmerge]
      · rw [Dict.get?_set_of_ne (Ne.symm hk)]
        by_cases hk' : k = "id"
        · subst hk'
          rw [Dict.get?_set_self, hid]
        · have hshares : (k != "id" && k != "metadata") = true := by simp [hk, hk']
          rw [Dict.get?_set_of_ne (Ne.symm hk'), hfinds k, shared, Dict.get?_set_of_ne (Ne.symm hk),
            Dict.get?_restrict, if_pos hshares]
    rw [hitem.item, PyValue.canon, PyValue.canon, PyValue.canonEntries, PyValue.canonEntries,
      PyValue.canonEntries, PyValue.canonEntries, hrestored]

/-! ## 5.  Collections -/

/-- The templates are JSON and hold what the indexes say. -/
structure Compacted.Sound (c : Compacted) : Prop where
  indexed : ∀ key i, Dict.get? c.indexes key = some i →
    ∃ t, c.templates[i]? = some t ∧ canonicalJson (.dict t) = .ok key
  plain : ∀ t ∈ c.templates, (PyValue.dict t).plain = true

theorem Compacted.sound_empty : (⟨[], [], []⟩ : Compacted).Sound where
  indexed key i h := by cases h
  plain t ht := by cases ht

theorem getElem?_grown {l l' : List PyDict} (h : l <+: l') {i : Nat} {t : PyDict} (ht : l[i]? = some t) :
    l'[i]? = some t := by
  obtain ⟨rest, rfl⟩ := h
  rw [List.getElem?_append_left (List.getElem?_eq_some_iff.mp ht).1]
  exact ht

theorem Compacted.Sound.admitShared {c : Compacted} (hc : c.Sound) {key : List Char} {t : PyDict}
    (hkey : canonicalJson (.dict t) = .ok key) (ht : (PyValue.dict t).plain = true) :
    (c.admitShared key t).Sound ∧ c.templates <+: (c.admitShared key t).templates ∧
      (c.admitShared key t).compact = c.compact ∧
      ∃ i t', Dict.get? (c.admitShared key t).indexes key = some i ∧
        (c.admitShared key t).templates[i]? = some t' ∧ canonicalJson (.dict t') = .ok key := by
  unfold Compacted.admitShared
  cases hget : Dict.get? c.indexes key with
  | some i =>
      obtain ⟨t', ht', hkey'⟩ := hc.indexed key i hget
      exact ⟨hc, List.prefix_refl _, rfl, i, t', hget, ht', hkey'⟩
  | none =>
      dsimp only
      have hlast : (c.templates ++ [t])[c.templates.length]? = some t := List.getElem?_concat_length
      refine ⟨⟨fun key' i hi => ?_, fun t' ht' => ?_⟩, List.prefix_append _ _, rfl, c.templates.length, t,
        Dict.get?_set_self _ _ _, hlast, hkey⟩
      · by_cases hk : key' = key
        · subst hk
          rw [Dict.get?_set_self] at hi
          rw [← Option.some.inj hi]
          exact ⟨t, hlast, hkey⟩
        · rw [Dict.get?_set_of_ne (Ne.symm hk)] at hi
          obtain ⟨t', ht', hkey'⟩ := hc.indexed key' i hi
          exact ⟨t', getElem?_grown (List.prefix_append _ _) ht', hkey'⟩
      · rcases List.mem_append.mp ht' with ht' | ht'
        · exact hc.plain t' ht'
        · rw [List.mem_singleton.mp ht']
          exact ht

theorem plain_compactItem {handle metadata : PyDict} (hplain : (PyValue.dict handle).plain = true)
    (hm : (PyValue.dict metadata).plain = true) (index : Nat) :
    (compactItem index handle metadata).plain = true := by
  have hid : ((Dict.get? handle "id").getD .none).plain = true := by
    cases hget : Dict.get? handle "id" with
    | none => rfl
    | some id => exact (plain_dict_iff.mp hplain).2 _ (Dict.mem_of_get? hget)
  rw [compactItem, plain_dict_iff]
  refine ⟨by simp [Dict.WF], fun p hp => ?_⟩
  simp only [List.mem_cons, List.not_mem_nil, or_false] at hp
  rcases hp with rfl | rfl | rfl
  · rfl
  · exact hid
  · exact plain_restrict hm _

/-- **The compact forms of handles are restored** from the templates, in their order. -/
theorem compactItems_eq_ok {items : List PyValue} {c c' : Compacted}
    (h : compactItems items c = .ok (some c')) (hc : c.Sound) (hplain : ∀ v ∈ items, v.plain = true) :
    c'.Sound ∧ c.templates <+: c'.templates ∧ ∃ new, c'.compact = c.compact ++ new ∧
      (∀ v ∈ new, v.plain = true) ∧
      ∃ handles, restoreAll (c'.templates.map .dict) new = some handles ∧
        PyValue.canonItems handles = PyValue.canonItems items := by
  induction items generalizing c with
  | nil =>
      obtain rfl := Option.some.inj (Except.ok.inj h)
      exact ⟨hc, List.prefix_refl _, [], (List.append_nil _).symm, by simp, [], rfl, rfl⟩
  | cons item items ih =>
      rw [List.forall_mem_cons] at hplain
      rw [compactItems] at h
      cases hhandle : handleOf item with
      | none =>
          rw [hhandle] at h
          cases h
      | some pair =>
          obtain ⟨handle, metadata⟩ := pair
          have hitem := handleOf_eq_some hhandle
          have hplainHandle : (PyValue.dict handle).plain = true := by
            have hp := hplain.1
            rw [hitem.item] at hp
            exact (plain_dict_iff.mp hp).2 _ (List.mem_singleton_self _)
          have hmetadata : (PyValue.dict metadata).plain = true :=
            (plain_dict_iff.mp hplainHandle).2 _ (Dict.mem_of_get? hitem.metadata)
          have hshared := plain_shared hplainHandle hmetadata
          rw [hhandle] at h
          dsimp only at h
          cases hkey : canonicalJson (.dict (shared handle metadata)) with
          | error e =>
              rw [hkey] at h
              cases h
          | ok key =>
              rw [hkey] at h
              dsimp only at h
              obtain ⟨hsound, hgrown, hcompact, i, t, hi, ht, hkeyt⟩ := hc.admitShared hkey hshared
              obtain ⟨hsound', hgrown', new, hnew, hplainNew, handles, hrestore, hcanon⟩ :=
                ih h ⟨hsound.indexed, hsound.plain⟩ hplain.2
              have hequal := canon_eq_of_canonicalJson (hsound.plain t (List.mem_of_getElem? ht)) hshared
                hkeyt hkey
              have hindex : (c'.templates.map PyValue.dict)[i]? = some (.dict t) := by
                rw [List.getElem?_map, getElem?_grown hgrown' ht, Option.map_some]
              obtain ⟨restored, hone, hsame⟩ := restore_compactItem hitem hplainHandle
                (hsound.plain t (List.mem_of_getElem? ht)) hindex hequal
              refine ⟨hsound', hgrown.trans hgrown', compactItem i handle metadata :: new, ?_, ?_,
                restored :: handles, ?_, ?_⟩
              · rw [hnew, hi, hcompact, List.append_assoc]
                rfl
              · rw [List.forall_mem_cons]
                exact ⟨plain_compactItem hplainHandle hmetadata i, hplainNew⟩
              · rw [restoreAll, hone, hrestore]
                rfl
              · rw [PyValue.canonItems, PyValue.canonItems, hsame, hcanon]

/-! ## 6.  The round trip -/

mutual

/-- What travels: no key twice, no dictionary under the schema of a packed collection, and JSON inside the
handles of a collection. -/
def portable : PyValue → Bool
  | .none | .bool _ | .int _ | .float _ | .str _ | .bytes _ => true
  | .list vs => portableItems vs
  | .dict es =>
      decide (Dict.WF es) && decide (schemaOf es ≠ some wireBrowser) &&
        match collection es with
        | .error _ => false
        | .ok none => portableEntries false es
        | .ok (some _) => portableEntries true es
  | .nonFinite _ | .tuple _ | .record _ | .foreign _ => false

/-- `portable`, item by item. -/
def portableItems : List PyValue → Bool
  | [] => true
  | v :: vs => portable v && portableItems vs

/-- `portable`, entry by entry, the handles of a collection apart. -/
def portableEntries (collected : Bool) : PyDict → Bool
  | [] => true
  | (k, v) :: es =>
      (if collected && k == "elements" then v.plain else portable v) && portableEntries collected es

end

/-- A value and its packed form. -/
structure Travels (v w : PyValue) : Prop where
  packed : packValue v = .ok w
  json : w.plain = true
  unpacked : ∃ u, unpackValue w = some u ∧ u.canon = v.canon

/-- Entries and their packed form. -/
def EntriesTravel (es ws : PyDict) : Prop := List.Forall₂ (fun p q => q.1 = p.1 ∧ Travels p.2 q.2) es ws

theorem packEntries_eq_map (es : PyDict) : packEntries es = es.map fun p => (p.1, packValue p.2) := by
  induction es with
  | nil => rfl
  | cons p es ih => rw [packEntries, ih, List.map_cons]

theorem Travels.str? {v w : PyValue} (h : Travels v w) : w.str? = v.str? := by
  have hpacked := h.packed
  cases v with
  | bytes data =>
      rw [packValue] at hpacked
      rw [← Except.ok.inj hpacked]
      rfl
  | list items =>
      rw [packValue] at hpacked
      cases hitems : packItems items with
      | error e =>
          rw [hitems] at hpacked
          cases hpacked
      | ok ws =>
          rw [hitems] at hpacked
          rw [← Except.ok.inj hpacked]
          rfl
  | dict es =>
      have hdict : ∃ d, w = .dict d := by
        rw [packValue] at hpacked
        split at hpacked
        · cases hs : sequence (packEntries es) with
          | error e =>
              rw [hs] at hpacked
              cases hpacked
          | ok ws =>
              rw [hs] at hpacked
              exact ⟨_, (Except.ok.inj hpacked).symm⟩
        · split at hpacked
          · cases hpacked
          · cases hs : sequence (packEntries es) with
            | error e =>
                rw [hs] at hpacked
                cases hpacked
            | ok ws =>
                rw [hs] at hpacked
                exact ⟨_, (Except.ok.inj hpacked).symm⟩
          · next c hc =>
            cases hs : sequence ((packEntries es).filter fun e => e.1 != "elements") with
            | error e =>
                rw [hs] at hpacked
                cases hpacked
            | ok ws =>
                rw [hs] at hpacked
                exact ⟨_, (Except.ok.inj hpacked).symm⟩
      obtain ⟨d, rfl⟩ := hdict
      rfl
  | _ =>
      rw [packValue] at hpacked
      · rw [← Except.ok.inj hpacked]
      all_goals simp

namespace EntriesTravel

variable {es ws : PyDict}

theorem keys (h : EntriesTravel es ws) : Dict.keys ws = Dict.keys es := by
  induction h with
  | nil => rfl
  | cons hpair _ ih => rw [Dict.keys_cons, Dict.keys_cons, ih, hpair.1]

theorem sequence (h : EntriesTravel es ws) :
    WireValues.sequence (es.map fun p => (p.1, packValue p.2)) = .ok ws := by
  induction h with
  | nil => rfl
  | @cons p q es ws hpair _ ih =>
      obtain ⟨k, w⟩ := q
      obtain ⟨rfl, htravels⟩ := hpair
      rw [List.map_cons, htravels.packed, WireValues.sequence, ih]
      rfl

theorem plain (h : EntriesTravel es ws) : ∀ q ∈ ws, q.2.plain = true := by
  induction h with
  | nil => simp
  | cons hpair _ ih =>
      rw [List.forall_mem_cons]
      exact ⟨hpair.2.json, ih⟩

theorem unpacked (h : EntriesTravel es ws) :
    ∃ us, sequence? (unpackEntries ws) = some us ∧ PyValue.canonEntries us = PyValue.canonEntries es := by
  induction h with
  | nil => exact ⟨[], rfl, rfl⟩
  | @cons p q es ws hpair _ ih =>
      obtain ⟨k, v⟩ := p
      obtain ⟨k', w⟩ := q
      obtain ⟨rfl, htravels⟩ := hpair
      obtain ⟨us, hus, hcanon⟩ := ih
      obtain ⟨u, hu, hsame⟩ := htravels.unpacked
      refine ⟨(k', u) :: us, ?_, ?_⟩
      · rw [unpackEntries, hu, sequence?, hus]
        rfl
      · rw [PyValue.canonEntries, PyValue.canonEntries, hsame, hcanon]

theorem schemaOf (h : EntriesTravel es ws) : WireValues.schemaOf ws = WireValues.schemaOf es := by
  unfold WireValues.schemaOf
  induction h with
  | nil => rfl
  | @cons p q es ws hpair _ ih =>
      obtain ⟨k, v⟩ := p
      obtain ⟨k', w⟩ := q
      obtain ⟨rfl, htravels⟩ := hpair
      rw [Dict.get?_cons, Dict.get?_cons]
      dsimp only
      split
      · exact htravels.str?
      · exact ih

end EntriesTravel

/-- A dictionary with other keys than the marks. -/
theorem keys_ne_of_not_marked {es : PyDict} (h : marked es = false) :
    Dict.keys es ≠ ["$variant1_literal"] ∧ Dict.keys es ≠ ["$variant1_bytes"] := by
  rw [marked, Bool.or_eq_false_iff] at h
  exact ⟨fun hkeys => by rw [hkeys] at h; simp at h, fun hkeys => by rw [hkeys] at h; simp at h⟩

theorem not_marked_of_schema {es : PyDict} {schema : String} (h : schemaOf es = some schema) :
    marked es = false := by
  have hmem : "schema" ∈ Dict.keys es := by
    by_contra hnot
    rw [schemaOf, Dict.get?_eq_none_iff.mpr hnot] at h
    cases h
  cases hm : marked es with
  | false => rfl
  | true =>
      rw [marked, Bool.or_eq_true, beq_iff_eq, beq_iff_eq] at hm
      rcases hm with hm | hm <;> rw [hm] at hmem <;> simp at hmem

/-- A dictionary unpacked entry by entry. -/
theorem unpackValue_dict {ws : PyDict} (hmarked : marked ws = false)
    (hschema : schemaOf ws ≠ some wireBrowser) :
    unpackValue (.dict ws) = (sequence? (unpackEntries ws)).map .dict := by
  obtain ⟨hliteral, hbytes⟩ := keys_ne_of_not_marked hmarked
  rw [unpackValue, if_neg hliteral, if_neg hbytes, if_neg hschema]

theorem marked_eq {es ws : PyDict} (h : Dict.keys ws = Dict.keys es) : marked ws = marked es := by
  rw [marked, marked, h]

/-- An escaped dictionary. -/
theorem travels_literal {es ws : PyDict} (hwf : Dict.WF es) (hmarked : marked es = true)
    (h : EntriesTravel es ws) : Travels (.dict es) (.dict [("$variant1_literal", .dict ws)]) := by
  obtain ⟨us, hus, hcanon⟩ := h.unpacked
  refine ⟨?_, ?_, .dict us, ?_, ?_⟩
  · rw [packValue, if_pos hmarked, packEntries_eq_map, h.sequence]
    rfl
  · rw [plain_dict_iff]
    refine ⟨by simp [Dict.WF], fun p hp => ?_⟩
    rw [List.mem_singleton.mp hp, plain_dict_iff, Dict.WF, h.keys]
    exact ⟨hwf, h.plain⟩
  · have hkeys : Dict.keys [("$variant1_literal", PyValue.dict ws)] = ["$variant1_literal"] := rfl
    rw [unpackValue, if_pos hkeys, unpackLiteral, hus]
    rfl
  · rw [PyValue.canon, PyValue.canon, hcanon]

/-- A dictionary packed entry by entry. -/
theorem travels_entries {es ws : PyDict} (hwf : Dict.WF es) (hmarked : marked es = false)
    (hschema : schemaOf es ≠ some wireBrowser) (hcollection : collection es = .ok none)
    (h : EntriesTravel es ws) : Travels (.dict es) (.dict ws) := by
  obtain ⟨us, hus, hcanon⟩ := h.unpacked
  refine ⟨?_, ?_, .dict us, ?_, ?_⟩
  · rw [packValue, hmarked, if_neg Bool.false_ne_true, hcollection]
    dsimp only
    rw [packEntries_eq_map, h.sequence]
    rfl
  · rw [plain_dict_iff, Dict.WF, h.keys]
    exact ⟨hwf, h.plain⟩
  · rw [unpackValue_dict ((marked_eq h.keys).trans hmarked) (h.schemaOf.symm ▸ hschema), hus]
    rfl
  · rw [PyValue.canon, PyValue.canon, hcanon]

theorem collection_eq_some {es : PyDict} {c : Compacted} (h : collection es = .ok (some c)) :
    ∃ items, Dict.get? es "elements" = some (.list items) ∧ schemaOf es = some browser ∧
      compactItems items ⟨[], [], []⟩ = .ok (some c) := by
  unfold collection at h
  split at h
  · next items hitems =>
    split at h
    · next hcond => exact ⟨items, hitems, hcond.1, h⟩
    · cases h
  · cases h

theorem unpackCollection_eq {entries result : PyDict} {templates items handles : List PyValue}
    (htemplates : Dict.get? entries "templates" = some (.list templates))
    (hitems : Dict.get? entries "elements" = some (.list items))
    (hrestore : restoreAll templates items = some handles) :
    unpackCollection entries (some (.dict result)) =
      some (.dict (Dict.set result "elements" (.list handles))) := by
  unfold unpackCollection
  rw [htemplates, hitems]
  dsimp only
  rw [hrestore, Option.map_some]

/-- The entries of a collection without its handles. -/
def withoutElements (es : PyDict) : PyDict := Dict.restrict (fun k => k != "elements") es

/-- **A collection of handles.** -/
theorem travels_collection {es ws : PyDict} {c : Compacted} (hwf : Dict.WF es)
    (hcollection : collection es = .ok (some c))
    (helements : ∀ v, Dict.get? es "elements" = some v → v.plain = true)
    (h : EntriesTravel (withoutElements es) ws) :
    ∃ w, Travels (.dict es) w := by
  obtain ⟨items, hitems, hschema, hcompact⟩ := collection_eq_some hcollection
  obtain ⟨hsound, -, new, hnew, hplainNew, handles, hrestore, hhandles⟩ :=
    compactItems_eq_ok hcompact Compacted.sound_empty (plain_list_iff.mp (helements _ hitems))
  rw [List.nil_append] at hnew
  obtain ⟨us, hus, hcanon⟩ := h.unpacked
  have hkept : Dict.WF (withoutElements es) := hwf.restrict _
  have hschemaWs : schemaOf ws = some browser := by
    rw [h.schemaOf, ← hschema, schemaOf, withoutElements, Dict.get?_restrict]
    rfl
  have hvalue : unpackValue (.dict ws) = some (.dict us) := by
    rw [unpackValue_dict (not_marked_of_schema hschemaWs) (by rw [hschemaWs]; decide), hus]
    rfl
  refine ⟨.dict [("schema", .str wireBrowser), ("value", .dict ws),
    ("templates", .list (c.templates.map .dict)), ("elements", .list c.compact)], ?_, ?_,
    .dict (Dict.set us "elements" (.list handles)), ?_, ?_⟩
  · have hfilter : (packEntries es).filter (fun e => e.1 != "elements") =
        (withoutElements es).map fun p => (p.1, packValue p.2) := by
      rw [packEntries_eq_map, List.filter_map]
      rfl
    rw [packValue, not_marked_of_schema hschema, if_neg Bool.false_ne_true, hcollection]
    dsimp only
    rw [hfilter, h.sequence]
    rfl
  · rw [plain_dict_iff]
    refine ⟨by simp [Dict.WF], fun p hp => ?_⟩
    simp only [List.mem_cons, List.not_mem_nil, or_false] at hp
    rcases hp with rfl | rfl | rfl | rfl
    · rfl
    · rw [plain_dict_iff, Dict.WF, h.keys]
      exact ⟨hkept, h.plain⟩
    · rw [plain_list_iff]
      intro v hv
      obtain ⟨t, ht, rfl⟩ := List.mem_map.mp hv
      exact hsound.plain t ht
    · rw [plain_list_iff, hnew]
      exact hplainNew
  · have hwire : schemaOf [("schema", .str wireBrowser), ("value", .dict ws),
        ("templates", .list (c.templates.map .dict)), ("elements", .list c.compact)] = some wireBrowser := rfl
    rw [unpackValue, if_neg (by simp), if_neg (by simp), if_pos hwire, unpackEntries, unpackEntries, hvalue]
    exact unpackCollection_eq rfl rfl (hnew ▸ hrestore)
  · have hfinds : ∀ k, (Dict.get? us k).map PyValue.canon =
        (Dict.get? (withoutElements es) k).map PyValue.canon := by
      intro k
      rw [← get?_canonEntries, ← get?_canonEntries, hcanon]
    have hwfUs : Dict.WF us := by
      have hwf' := wf_canonEntries hkept
      rw [← hcanon, canonEntries_eq_map, Dict.WF, Dict.keys, List.map_map] at hwf'
      exact hwf'
    refine (canon_dict_eq_iff (hwfUs.set _ _) hwf).mpr fun k => ?_
    by_cases hk : k = "elements"
    · subst hk
      rw [Dict.get?_set_self, hitems, Option.map_some, Option.map_some, PyValue.canon, PyValue.canon,
        hhandles]
    · rw [Dict.get?_set_of_ne (Ne.symm hk), hfinds k, withoutElements, Dict.get?_restrict,
        if_pos (by simpa using hk)]

/-- The handles of a portable collection are JSON. -/
theorem elements_of_portable {es : PyDict} (h : portableEntries true es = true) :
    ∀ v, Dict.get? es "elements" = some v → v.plain = true := by
  induction es with
  | nil =>
      intro v hv
      cases hv
  | cons p es ih =>
      obtain ⟨k, v⟩ := p
      rw [portableEntries, Bool.and_eq_true, Bool.true_and] at h
      intro v' hv'
      rw [Dict.get?_cons] at hv'
      split at hv'
      · next hk =>
        have hfirst := h.1
        rw [if_pos (beq_iff_eq.mpr hk)] at hfirst
        rw [← Option.some.inj hv']
        exact hfirst
      · exact ih h.2 v' hv'

mutual

/-- What is portable travels. -/
theorem travels_of_portable {v : PyValue} (h : portable v = true) : ∃ w, Travels v w := by
  cases v with
  | bytes data =>
      refine ⟨_, rfl, ?_, .bytes data, ?_, rfl⟩
      · rw [plain_dict_iff]
        exact ⟨by simp [Dict.WF], fun p hp => by rw [List.mem_singleton.mp hp]; rfl⟩
      · have hkeys : Dict.keys [("$variant1_bytes", PyValue.str (String.ofList (Base64.encode data)))] =
            ["$variant1_bytes"] := rfl
        rw [unpackValue, if_neg (by simp), if_pos hkeys]
        show (Base64.decode (String.ofList (Base64.encode data)).toList).map PyValue.bytes = _
        rw [String.toList_ofList, Base64.decode_encode, Option.map_some]
  | list vs =>
      rw [portable] at h
      obtain ⟨ws, hpacked, hplain, us, hunpacked, hcanon⟩ := itemsTravel_of_portable h
      refine ⟨.list ws, by rw [packValue, hpacked]; rfl, plain_list_iff.mpr hplain, .list us, ?_, ?_⟩
      · rw [unpackValue, hunpacked]
        rfl
      · rw [PyValue.canon, PyValue.canon, hcanon]
  | dict es =>
      rw [portable, Bool.and_eq_true, Bool.and_eq_true, decide_eq_true_eq, decide_eq_true_eq] at h
      obtain ⟨⟨hwf, hschema⟩, hentries⟩ := h
      cases hcollection : collection es with
      | error e =>
          rw [hcollection] at hentries
          cases hentries
      | ok packed =>
          rw [hcollection] at hentries
          cases packed with
          | none =>
              obtain ⟨ws, hws⟩ := entriesTravel_of_portable hentries
              have hall : es.filter (fun p => !(false && p.1 == "elements")) = es := List.filter_true es
              rw [hall] at hws
              cases hmarked : marked es with
              | true => exact ⟨_, travels_literal hwf hmarked hws⟩
              | false => exact ⟨_, travels_entries hwf hmarked hschema hcollection hws⟩
          | some c =>
              obtain ⟨ws, hws⟩ := entriesTravel_of_portable hentries
              exact travels_collection hwf hcollection (elements_of_portable hentries) hws
  | none => exact ⟨.none, rfl, rfl, .none, rfl, rfl⟩
  | bool b => exact ⟨.bool b, rfl, rfl, .bool b, rfl, rfl⟩
  | int i => exact ⟨.int i, rfl, rfl, .int i, rfl, rfl⟩
  | float x => exact ⟨.float x, rfl, rfl, .float x, rfl, rfl⟩
  | str s => exact ⟨.str s, rfl, rfl, .str s, rfl, rfl⟩
  | nonFinite text => simp [portable] at h
  | tuple vs => simp [portable] at h
  | record v => simp [portable] at h
  | foreign name => simp [portable] at h

theorem itemsTravel_of_portable {vs : List PyValue} (h : portableItems vs = true) :
    ∃ ws, packItems vs = .ok ws ∧ (∀ w ∈ ws, w.plain = true) ∧
      ∃ us, unpackItems ws = some us ∧ PyValue.canonItems us = PyValue.canonItems vs := by
  cases vs with
  | nil => exact ⟨[], rfl, by simp, [], rfl, rfl⟩
  | cons v vs =>
      rw [portableItems, Bool.and_eq_true] at h
      obtain ⟨w, hw⟩ := travels_of_portable h.1
      obtain ⟨ws, hpacked, hplain, us, hunpacked, hcanon⟩ := itemsTravel_of_portable h.2
      obtain ⟨u, hu, hsame⟩ := hw.unpacked
      refine ⟨w :: ws, ?_, ?_, u :: us, ?_, ?_⟩
      · rw [packItems, hw.packed]
        dsimp only
        rw [hpacked]
        rfl
      · rw [List.forall_mem_cons]
        exact ⟨hw.json, hplain⟩
      · rw [unpackItems, hu, hunpacked]
        rfl
      · rw [PyValue.canonItems, PyValue.canonItems, hsame, hcanon]

theorem entriesTravel_of_portable {es : PyDict} {collected : Bool} (h : portableEntries collected es = true) :
    ∃ ws, EntriesTravel (es.filter fun p => !(collected && p.1 == "elements")) ws := by
  cases es with
  | nil => exact ⟨[], .nil⟩
  | cons p es =>
      obtain ⟨k, v⟩ := p
      rw [portableEntries, Bool.and_eq_true] at h
      obtain ⟨ws, hws⟩ := entriesTravel_of_portable h.2
      cases hk : collected && k == "elements" with
      | true => exact ⟨ws, by rw [List.filter_cons_of_neg (by simp [hk])]; exact hws⟩
      | false =>
          rw [hk, if_neg Bool.false_ne_true] at h
          obtain ⟨w, hw⟩ := travels_of_portable h.1
          exact ⟨(k, w) :: ws, by rw [List.filter_cons_of_pos (by simp [hk])]; exact .cons ⟨rfl, hw⟩ hws⟩

end

/-- A handle of a button. -/
def button (id name : String) : PyValue :=
  .dict [("$variant1_handle", .dict [("id", .str id), ("service", .str "browser"),
    ("metadata", .dict [("name", .str name), ("tab", .int 3)])])]

/-- A browser result with two handles that share a template, next to bytes and a dictionary that looks like
packed bytes. -/
def observed : PyValue :=
  .list [.dict [("schema", .str browser), ("elements", .list [button "a" "Save", button "b" "Open"]),
      ("page", .int 1)],
    .bytes [0, 255], .dict [("$variant1_bytes", .str "AP8=")]]

end WireValues
end KernelRuntime
end VariantOne
