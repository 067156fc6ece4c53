import VariantOne.Core.Document

/-!
# Following a catalog across handler changes

A static chat is pinned to a catalog document and may follow a later one whose handlers changed and
nothing else.  `handler_only_catalog_follow_allowed` walks copies of the two documents side by side,
takes the handler revisions out and compares what is left; it gives up where two lists differ in length
or two APIs in name.

`handlerOnly_follow`: it allows the later document exactly when the two are the same JSON document without
their source digests and handler revisions, in whatever order the keys stand, and some revision differs; and
it says the same with the two exchanged.

`Walk.Sound` is what is proved of a walk at every level: it takes out the revisions, tells whether one
differs, and gives up only on documents that differ without their revisions.  A walk over a list has it when
the walk over the rows has (`sound_walkRows`), so the result goes up from the declarations to the categories.
-/

namespace VariantOne
namespace SessionCatalog

/-! ## 1.  Catalog documents -/

/-- A binding, a transport or a method: the handler revision is one of its entries. -/
abbrev Declaration := List (String × Json)

structure SlotDocument where
  bindings : List Declaration
  /-- The methods of an object slot, which the builder gives no handler revision. -/
  methods : List Declaration
  unrevised : ∀ m ∈ methods, "handler_revision" ∉ Dict.keys m
  /-- The other entries. -/
  rest : List (String × Json)

/-- A row of `_object_methods_from_tool`. -/
structure ToolMethod where
  name : String
  operation : String
  condition : String
  description : String
  params : Json
  signature : String
  effectClass : String
  parallelSafe : Bool
  idempotency : String
  mayReturnSecrets : Bool

def ToolMethod.declaration (m : ToolMethod) : Declaration :=
  [("alias", .str m.name), ("operation", .str m.operation), ("condition", .str m.condition),
    ("description", .str m.description), ("params", m.params), ("signature", .str m.signature),
    ("effect_class", .str m.effectClass), ("parallel_safe", .bool m.parallelSafe),
    ("idempotency", .str m.idempotency), ("may_return_secrets", .bool m.mayReturnSecrets)]

/-- A slot as `build_catalog_document` writes it. -/
def SlotDocument.build (bindings : List Declaration) (methods : List ToolMethod)
    (rest : List (String × Json)) : SlotDocument where
  bindings := bindings
  methods := methods.map ToolMethod.declaration
  unrevised := fun m hm => by
    obtain ⟨m', -, rfl⟩ := List.mem_map.mp hm
    simp [ToolMethod.declaration, Dict.keys]
  rest := rest

structure ApiDocument where
  name : String
  transport : Option Declaration
  methods : List Declaration
  rest : List (String × Json)

structure CategoryDocument where
  slots : List SlotDocument
  pythonApis : List ApiDocument
  rest : List (String × Json)

structure CatalogDocument where
  sourceDigest : Option Json
  categories : List CategoryDocument
  rest : List (String × Json)

/-- A list of declarations as JSON. -/
def rowsJson (rows : List Declaration) : Json := .arr (rows.map .obj)

def SlotDocument.json (s : SlotDocument) : Json :=
  .obj (("bindings", rowsJson s.bindings) :: ("methods", rowsJson s.methods) :: s.rest)

def ApiDocument.json (a : ApiDocument) : Json :=
  .obj (("name", .str a.name) :: ("methods", rowsJson a.methods) ::
    (a.transport.toList.map fun t => ("transport", .obj t)) ++ a.rest)

def CategoryDocument.json (c : CategoryDocument) : Json :=
  .obj (("slots", .arr (c.slots.map SlotDocument.json)) ::
    ("python_apis", .arr (c.pythonApis.map ApiDocument.json)) :: c.rest)

def CatalogDocument.json (d : CatalogDocument) : Json :=
  .obj (("categories", .arr (d.categories.map CategoryDocument.json)) ::
    (d.sourceDigest.toList.map fun v => ("source_digest", v)) ++ d.rest)

/-- `row.pop(key, None)` -/
def pop (row : Declaration) (key : String) : Declaration := row.filter (·.1 ≠ key)

/-- `str(row.get("handler_revision") or "")`, of a revision that is a text. -/
def handlerRevision (row : Declaration) : String :=
  match Dict.get? row "handler_revision" with
  | some (.str s) => s
  | _ => ""

/-! ## 2.  The walk -/

/-- Two values side by side: both without their revisions, and whether one of these differs; `none` where
the walk gives up. -/
def Walk (α : Type) : Type := α → α → Option (α × α × Bool)

/-- The revision of a declaration. -/
def walkRevision : Walk Declaration := fun left right =>
  some (pop left "handler_revision", pop right "handler_revision",
    decide (handlerRevision left ≠ handlerRevision right))

/-- `zip(left, right)` -/
def walkZip {α : Type} (walk : Walk α) : Walk (List α)
  | l :: ls, r :: rs => do
      let (l, r, changed) ← walk l r
      let (ls, rs, changed') ← walkZip walk ls rs
      return (l :: ls, r :: rs, changed || changed')
  | ls, rs => some (ls, rs, false)

/-- Lists, which must have one length. -/
def walkRows {α : Type} (walk : Walk α) : Walk (List α) := fun left right =>
  if left.length ≠ right.length then none else walkZip walk left right

def walkSlot : Walk SlotDocument := fun left right => do
  let (bindings, peerBindings, changed) ← walkRows walkRevision left.bindings right.bindings
  return ({ left with bindings := bindings }, { right with bindings := peerBindings }, changed)

/-- `api.get("transport") or {}`: popping from the empty dictionary leaves the API as it is. -/
def popTransport (a : ApiDocument) : ApiDocument :=
  { a with transport := a.transport.map (pop · "handler_revision") }

def walkApi : Walk ApiDocument := fun left right =>
  if left.name ≠ right.name then none
  else do
    let changed := decide (handlerRevision (left.transport.getD []) ≠
      handlerRevision (right.transport.getD []))
    let (methods, peerMethods, changed') ← walkRows walkRevision left.methods right.methods
    return ({ popTransport left with methods := methods },
      { popTransport right with methods := peerMethods }, changed || changed')

def walkCategory : Walk CategoryDocument := fun left right => do
  let (slots, peerSlots, changed) ← walkRows walkSlot left.slots right.slots
  let (apis, peerApis, changed') ← walkRows walkApi left.pythonApis right.pythonApis
  return ({ left with slots := slots, pythonApis := apis },
    { right with slots := peerSlots, pythonApis := peerApis }, changed || changed')

/-- `handler_only_catalog_follow_allowed` -/
def handlerOnlyCatalogFollowAllowed (pinned current : CatalogDocument) : Bool :=
  let left := { pinned with sourceDigest := none }
  let right := { current with sourceDigest := none }
  match walkRows walkCategory left.categories right.categories with
  | none => false
  | some (categories, peerCategories, changed) =>
      changed && decide (Json.dumps { left with categories := categories }.json =
        Json.dumps { right with categories := peerCategories }.json)

/-! ## 3.  Documents without their revisions -/

/-- A declaration without its handler revision. -/
def eraseRevision (row : Declaration) : Declaration := row.filter (·.1 ≠ "handler_revision")

def SlotDocument.erase (s : SlotDocument) : SlotDocument where
  bindings := s.bindings.map eraseRevision
  methods := s.methods.map eraseRevision
  unrevised := fun m hm hkey => by
    obtain ⟨m', hm', rfl⟩ := List.mem_map.mp hm
    obtain ⟨v, hv⟩ := Dict.mem_keys.mp hkey
    exact absurd rfl (of_decide_eq_true (List.mem_filter.mp hv).2)
  rest := s.rest

def ApiDocument.erase (a : ApiDocument) : ApiDocument :=
  { a with transport := a.transport.map eraseRevision, methods := a.methods.map eraseRevision }

def CategoryDocument.erase (c : CategoryDocument) : CategoryDocument :=
  { c with slots := c.slots.map SlotDocument.erase, pythonApis := c.pythonApis.map ApiDocument.erase }

/-- The document without its source digest and the handler revisions of its bindings, transports and
methods. -/
def CatalogDocument.erase (d : CatalogDocument) : CatalogDocument :=
  { d with sourceDigest := none, categories := d.categories.map CategoryDocument.erase }

def SlotDocument.revisions (s : SlotDocument) : List String :=
  s.bindings.map handlerRevision ++
    (s.methods.filter fun m => (Dict.get? m "handler_revision").isSome).map handlerRevision

def ApiDocument.revisions (a : ApiDocument) : List String :=
  handlerRevision (a.transport.getD []) :: a.methods.map handlerRevision

def CategoryDocument.revisions (c : CategoryDocument) : List String :=
  c.slots.flatMap SlotDocument.revisions ++ c.pythonApis.flatMap ApiDocument.revisions

/-- The handler revisions of a document, in order. -/
def CatalogDocument.revisions (d : CatalogDocument) : List String :=
  d.categories.flatMap CategoryDocument.revisions

/-- The same JSON document, whatever the order of its keys. -/
def SameDocument (d e : CatalogDocument) : Prop := d.json.canon = e.json.canon

/-! ## 4.  What a walk does -/

/-- A walk takes out the revisions and tells whether they differ, and it does not give up on values that are
the same without them. -/
structure Walk.Sound {α : Type} (walk : Walk α) (erase : α → α) (revisions : α → List String)
    (json : α → Json) : Prop where
  done : ∀ {l r out}, walk l r = some out →
    out = (erase l, erase r, decide (revisions l ≠ revisions r)) ∧
      (revisions l).length = (revisions r).length
  total : ∀ {l r}, (json (erase l)).canon = (json (erase r)).canon → walk l r ≠ none

/-- Whether one of two parts differs. -/
theorem decide_append_ne {xs xs' ys ys' : List String} (h : xs.length = xs'.length) :
    (decide (xs ≠ xs') || decide (ys ≠ ys')) = decide (xs ++ ys ≠ xs' ++ ys') := by
  rw [← Bool.decide_or, decide_eq_decide, ← not_and_or, not_iff_not]
  exact ⟨fun ⟨hx, hy⟩ => by rw [hx, hy], fun happ => List.append_inj happ h⟩

theorem decide_cons_ne (x y : String) (xs ys : List String) :
    (decide (x ≠ y) || decide (xs ≠ ys)) = decide (x :: xs ≠ y :: ys) := by
  rw [← Bool.decide_or, decide_eq_decide, ← not_and_or, not_iff_not, List.cons.injEq]

section Rows

variable {α : Type} {walk : Walk α} {erase : α → α} {revisions : α → List String} {json : α → Json}

/-- Lists of one length, side by side. -/
theorem walkZip_done (hwalk : walk.Sound erase revisions json) {ls rs : List α}
    {out : List α × List α × Bool} (hlen : ls.length = rs.length) (h : walkZip walk ls rs = some out) :
    out = (ls.map erase, rs.map erase, decide (ls.flatMap revisions ≠ rs.flatMap revisions)) ∧
      (ls.flatMap revisions).length = (rs.flatMap revisions).length := by
  induction ls generalizing rs out with
  | nil =>
      obtain rfl := List.length_eq_zero_iff.mp hlen.symm
      obtain rfl := Option.some.inj h
      exact ⟨rfl, rfl⟩
  | cons l ls ih =>
      obtain ⟨r, rs, rfl⟩ := List.exists_cons_of_length_eq_add_one hlen.symm
      obtain ⟨one, hone, h⟩ := Option.bind_eq_some_iff.mp h
      obtain ⟨rest, hrest, h⟩ := Option.bind_eq_some_iff.mp h
      obtain ⟨rfl, hlenone⟩ := hwalk.done hone
      obtain ⟨rfl, hlenrest⟩ := ih (Nat.succ.inj hlen) hrest
      obtain rfl := Option.some.inj h
      rw [List.flatMap_cons, List.flatMap_cons, ← decide_append_ne hlenone, List.length_append,
        List.length_append, hlenone, hlenrest]
      exact ⟨rfl, rfl⟩

theorem walkZip_total (hwalk : walk.Sound erase revisions json) {ls rs : List α}
    (h : (ls.map erase).map (fun x => (json x).canon) = (rs.map erase).map fun x => (json x).canon) :
    walkZip walk ls rs ≠ none := by
  induction ls generalizing rs with
  | nil =>
      cases rs with
      | nil => exact nofun
      | cons r rs => cases h
  | cons l ls ih =>
      cases rs with
      | nil => cases h
      | cons r rs =>
          rw [List.map_cons, List.map_cons, List.map_cons, List.map_cons] at h
          obtain ⟨hone, hrest⟩ := List.cons.inj h
          obtain ⟨one, hone⟩ := Option.ne_none_iff_exists'.mp (hwalk.total hone)
          obtain ⟨rest, hrest⟩ := Option.ne_none_iff_exists'.mp (ih hrest)
          rw [walkZip, hone, Option.bind_eq_bind, Option.bind_some, hrest]
          exact nofun

theorem canon_arr_map {β : Type} (f : β → Json) (xs : List β) :
    (Json.arr (xs.map f)).canon = .arr (xs.map fun x => (f x).canon) := by
  rw [Json.canon, Json.canonItems_eq_map, List.map_map]
  rfl

/-- **A walk over rows.** -/
theorem sound_walkRows (hwalk : walk.Sound erase revisions json) :
    (walkRows walk).Sound (List.map erase) (List.flatMap revisions) fun rows => .arr (rows.map json) where
  done := fun {l r out} h => by
    unfold walkRows at h
    split at h
    · cases h
    · rename_i hlen
      exact walkZip_done hwalk (not_not.mp hlen) h
  total := fun {l r} h => by
    rw [canon_arr_map, canon_arr_map] at h
    have hrows := Json.arr.inj h
    have hlen := congrArg List.length hrows
    simp only [List.length_map] at hlen
    unfold walkRows
    rw [if_neg (not_not.mpr hlen)]
    exact walkZip_total hwalk hrows

end Rows

/-- Objects that are the same have the same entries. -/
theorem canon_get? {es es' : List (String × Json)} (h : (Json.obj es).canon = (Json.obj es').canon)
    (key : String) : (Dict.get? es key).map Json.canon = (Dict.get? es' key).map Json.canon := by
  rw [Json.canon, Json.canon] at h
  rw [← get?_canonEntries, ← get?_canonEntries, ← Dict.get?_sort, Json.obj.inj h, Dict.get?_sort]

theorem sound_walkRevision :
    walkRevision.Sound eraseRevision (fun row => [handlerRevision row]) Json.obj where
  done := fun {l r out} h => by
    obtain rfl := Option.some.inj h
    refine ⟨?_, rfl⟩
    simp [eraseRevision, pop]
  total := fun _ => nofun

theorem flatMap_singleton_revision (rows : List Declaration) :
    (rows.flatMap fun row => [handlerRevision row]) = rows.map handlerRevision := by
  rw [List.map_eq_flatMap]

theorem SlotDocument.revisions_eq (s : SlotDocument) : s.revisions = s.bindings.map handlerRevision := by
  have hnone : (s.methods.filter fun m => (Dict.get? m "handler_revision").isSome) = [] := by
    rw [List.filter_eq_nil_iff]
    intro m hm
    rw [Dict.get?_eq_none_iff.mpr (s.unrevised m hm)]
    exact Bool.false_ne_true
  rw [revisions, hnone, List.map_nil, List.append_nil]

/-- A declaration without a revision is left alone. -/
theorem eraseRevision_of_notMem {m : Declaration} (h : "handler_revision" ∉ Dict.keys m) :
    eraseRevision m = m :=
  List.filter_eq_self.mpr fun _ he => decide_eq_true fun hkey => h (hkey ▸ Dict.mem_keys_of_mem he)

theorem SlotDocument.erase_eq (s : SlotDocument) :
    s.erase = { s with bindings := s.bindings.map eraseRevision } := by
  have hmethods : s.methods.map eraseRevision = s.methods :=
    (List.map_congr_left fun m hm => eraseRevision_of_notMem (s.unrevised m hm)).trans (List.map_id _)
  unfold erase
  congr

theorem sound_walkSlot : walkSlot.Sound SlotDocument.erase SlotDocument.revisions SlotDocument.json where
  done := fun {l r out} h => by
    obtain ⟨bindings, hbindings, h⟩ := Option.bind_eq_some_iff.mp h
    obtain ⟨rfl, hlen⟩ := (sound_walkRows sound_walkRevision).done hbindings
    obtain rfl := Option.some.inj h
    rw [flatMap_singleton_revision, flatMap_singleton_revision] at hlen ⊢
    rw [SlotDocument.erase_eq, SlotDocument.erase_eq, SlotDocument.revisions_eq, SlotDocument.revisions_eq]
    exact ⟨rfl, hlen⟩
  total := fun {l r} h => by
    have hbindings := (sound_walkRows sound_walkRevision).total (Option.some.inj (canon_get? h "bindings"))
    obtain ⟨out, hout⟩ := Option.ne_none_iff_exists'.mp hbindings
    rw [walkSlot, hout]
    exact nofun

theorem sound_walkApi : walkApi.Sound ApiDocument.erase ApiDocument.revisions ApiDocument.json where
  done := fun {l r out} h => by
    unfold walkApi at h
    split at h
    · cases h
    · obtain ⟨methods, hmethods, h⟩ := Option.bind_eq_some_iff.mp h
      obtain ⟨rfl, hlen⟩ := (sound_walkRows sound_walkRevision).done hmethods
      obtain rfl := Option.some.inj h
      rw [flatMap_singleton_revision, flatMap_singleton_revision] at hlen ⊢
      have hlen' : l.revisions.length = r.revisions.length := congrArg (· + 1) hlen
      have hchanged := decide_cons_ne (handlerRevision (l.transport.getD []))
        (handlerRevision (r.transport.getD [])) (l.methods.map handlerRevision)
        (r.methods.map handlerRevision)
      exact ⟨Prod.ext rfl (Prod.ext rfl hchanged), hlen'⟩
  total := fun {l r} h => by
    have hname : l.name = r.name := by
      have hget := Option.some.inj (canon_get? h "name")
      exact Json.str.inj hget
    have hmethods := (sound_walkRows sound_walkRevision).total (Option.some.inj (canon_get? h "methods"))
    obtain ⟨out, hout⟩ := Option.ne_none_iff_exists'.mp hmethods
    unfold walkApi
    rw [if_neg (not_not.mpr hname), hout]
    exact nofun

theorem sound_walkCategory :
    walkCategory.Sound CategoryDocument.erase CategoryDocument.revisions CategoryDocument.json where
  done := fun {l r out} h => by
    obtain ⟨slots, hslots, h⟩ := Option.bind_eq_some_iff.mp h
    obtain ⟨apis, hapis, h⟩ := Option.bind_eq_some_iff.mp h
    obtain ⟨rfl, hlenslots⟩ := (sound_walkRows sound_walkSlot).done hslots
    obtain ⟨rfl, hlenapis⟩ := (sound_walkRows sound_walkApi).done hapis
    obtain rfl := Option.some.inj h
    refine ⟨?_, by rw [CategoryDocument.revisions, CategoryDocument.revisions, List.length_append,
      List.length_append, hlenslots, hlenapis]⟩
    dsimp only
    rw [decide_append_ne hlenslots]
    rfl
  total := fun {l r} h => by
    have hslots := (sound_walkRows sound_walkSlot).total (Option.some.inj (canon_get? h "slots"))
    have hapis := (sound_walkRows sound_walkApi).total (Option.some.inj (canon_get? h "python_apis"))
    obtain ⟨slots, hslots⟩ := Option.ne_none_iff_exists'.mp hslots
    obtain ⟨apis, hapis⟩ := Option.ne_none_iff_exists'.mp hapis
    unfold walkCategory
    rw [hslots, Option.bind_eq_bind, Option.bind_some, hapis]
    exact nofun

/-! ## 5.  When a chat follows -/

/-- **A static chat follows a catalog only across handler changes.** -/
theorem handlerOnly_iff (pinned current : CatalogDocument) :
    handlerOnlyCatalogFollowAllowed pinned current = true ↔
      SameDocument pinned.erase current.erase ∧ pinned.revisions ≠ current.revisions := by
  have hrows := sound_walkRows sound_walkCategory
  unfold handlerOnlyCatalogFollowAllowed
  dsimp only
  cases hwalk : walkRows walkCategory pinned.categories current.categories with
  | none =>
      refine ⟨nofun, fun ⟨hsame, _⟩ => ?_⟩
      exact absurd hwalk (hrows.total (Option.some.inj (canon_get? hsame "categories")))
  | some out =>
      obtain ⟨rfl, -⟩ := hrows.done hwalk
      dsimp only
      rw [Bool.and_eq_true, decide_eq_true_iff, decide_eq_true_iff, Json.dumps_eq_dumps_iff, and_comm]
      rfl

/-- **The comparison is exact and symmetric.** -/
theorem handlerOnly_follow (pinned current : CatalogDocument) :
    (handlerOnlyCatalogFollowAllowed pinned current = true ↔
      SameDocument pinned.erase current.erase ∧ pinned.revisions ≠ current.revisions) ∧
    handlerOnlyCatalogFollowAllowed pinned current = handlerOnlyCatalogFollowAllowed current pinned := by
  refine ⟨handlerOnly_iff pinned current, ?_⟩
  rw [Bool.eq_iff_iff, handlerOnly_iff, handlerOnly_iff]
  exact and_congr eq_comm ne_comm

/-- A catalog with one object slot, whose handler has this revision. -/
def objectCatalog (revision effectClass : String) : CatalogDocument where
  sourceDigest := some (.str revision)
  categories := [⟨[.build [[("alias", .str "page"), ("handler_revision", .str revision)]]
    [⟨"open", "open", "", "", .obj [], "open()", effectClass, false, "caller_key", true⟩]
    [("position", .int 1)]], [], []⟩]
  rest := []

/-- A chat follows when the handler has changed, and not when a method has. -/
example : handlerOnlyCatalogFollowAllowed (objectCatalog "v1" "read") (objectCatalog "v2" "read") = true ∧
    handlerOnlyCatalogFollowAllowed (objectCatalog "v1" "read") (objectCatalog "v2" "pure") = false := by
  decide +kernel

end SessionCatalog
end VariantOne
