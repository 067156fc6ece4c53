import VariantOne.KernelRuntime.CapsuleRoundTrip

/-!
# Capsules over canonical JSON

The canonical text of `Lib/Json` is what the encoder of the capsule module writes.
Reading it is the inverse: the text determines the tree up to the order of its keys, so
this library is lossless (`lossless_canonicalJson`), and the claims about a lossless
library are claims about it.

The codec over any lossless library is `capsule_codec`: what is captured is a tree that
`restore` gives back, and what cannot be restored exactly is excluded with a reason.  There
are two exceptions, and `captured_not_restored` has a value for each: the guard of
`restore` refuses more JSON than the limits of a capture may let pass, and a text that
cannot be written may be too large before that is found (`Overlong`).
-/

namespace VariantOne
namespace KernelRuntime

open VariantOne.Tree

/-! ## 1.  Trees and JSON -/

/-- The JSON value of a tree, unless a tuple, bytes, a number that is not finite or a text
that cannot be written is in it. -/
def toJson? : Tree → Option Json :=
  Tree.fold
    (fun v =>
      match v with
      | .none => some .null
      | .bool b => some (.bool b)
      | .int i => some (.int i)
      | .float x => some (.float x)
      | .str s => (CodeText.text? s).map .str
      | .nonFinite _ | .bytes _ => none)
    (fun tuple items => if tuple then none else (items.mapM id).map .arr)
    fun entries =>
      (entries.mapM fun e => (CodeText.text? e.1).bind fun k => e.2.map (k, ·)).map .obj

mutual

/-- The tree of a JSON value. -/
def ofJson : Json → Tree
  | .null => .leaf .none
  | .bool b => .leaf (.bool b)
  | .int i => .leaf (.int i)
  | .float x => .leaf (.float x)
  | .str s => .leaf (.str (CodeText.ofString s))
  | .arr items => .sequence false (ofItems items)
  | .obj entries => .dict (ofEntries entries)

def ofItems : List Json → List Tree
  | [] => []
  | v :: vs => ofJson v :: ofItems vs

def ofEntries : List (String × Json) → List (CodeText × Tree)
  | [] => []
  | (k, v) :: es => (CodeText.ofString k, ofJson v) :: ofEntries es

end

theorem ofItems_eq_map (vs : List Json) : ofItems vs = vs.map ofJson := by
  induction vs with
  | nil => rfl
  | cons v vs ih => rw [ofItems, ih, List.map_cons]

theorem ofEntries_eq_map (es : List (String × Json)) :
    ofEntries es = es.map fun e => (CodeText.ofString e.1, ofJson e.2) := by
  induction es with
  | nil => rfl
  | cons e es ih =>
      obtain ⟨k, v⟩ := e
      rw [ofEntries, ih, List.map_cons]

/-- Induction over a JSON value. -/
@[elab_as_elim]
theorem json_induct {P : Json → Prop} (null : P .null) (bool : ∀ b, P (.bool b))
    (int : ∀ i, P (.int i)) (float : ∀ x, P (.float x)) (str : ∀ s, P (.str s))
    (arr : ∀ items, (∀ v ∈ items, P v) → P (.arr items))
    (obj : ∀ entries, (∀ e ∈ entries, P e.2) → P (.obj entries)) (v : Json) : P v :=
  @Json.rec P (fun items => ∀ v ∈ items, P v) (fun entries => ∀ e ∈ entries, P e.2)
    (fun e => P e.2)
    null bool int float str arr obj (by simp)
    (fun _ _ hv hvs => List.forall_mem_cons.mpr ⟨hv, hvs⟩) (by simp)
    (fun _ _ he hes => List.forall_mem_cons.mpr ⟨he, hes⟩) (fun _ _ hv => hv) v

theorem toJson?_list (items : List Tree) :
    toJson? (.sequence false items) = (items.mapM toJson?).map .arr := by
  unfold toJson?
  rw [fold_sequence, List.mapM_map]
  rfl

theorem toJson?_dict (entries : List (CodeText × Tree)) :
    toJson? (.dict entries) = (entries.mapM fun e =>
      (CodeText.text? e.1).bind fun k => (toJson? e.2).map (k, ·)).map .obj := by
  unfold toJson?
  rw [fold_dict, List.mapM_map]
  rfl

theorem toJson?_sequence_eq_some {tuple : Bool} {items : List Tree} {j : Json}
    (h : toJson? (.sequence tuple items) = some j) :
    tuple = false ∧ ∃ vs, items.mapM toJson? = some vs ∧ j = .arr vs := by
  cases tuple with
  | true =>
      unfold toJson? at h
      rw [fold_sequence] at h
      exact absurd h (by simp)
  | false =>
      rw [toJson?_list] at h
      obtain ⟨vs, hvs, rfl⟩ := Option.map_eq_some_iff.mp h
      exact ⟨rfl, vs, hvs, rfl⟩

theorem toJson?_dict_eq_some {entries : List (CodeText × Tree)} {j : Json}
    (h : toJson? (.dict entries) = some j) :
    ∃ es, entries.mapM (fun e => (CodeText.text? e.1).bind fun k => (toJson? e.2).map (k, ·)) =
      some es ∧ j = .obj es := by
  rw [toJson?_dict] at h
  obtain ⟨es, hes, rfl⟩ := Option.map_eq_some_iff.mp h
  exact ⟨es, hes, rfl⟩

/-- An option computation undone item by item. -/
theorem map_of_mapM {β γ : Type} {f : β → Option γ} {g : γ → β} {xs : List β} {ys : List γ}
    (h : xs.mapM f = some ys) (hg : ∀ x ∈ xs, ∀ y, f x = some y → g y = x) : ys.map g = xs := by
  induction xs generalizing ys with
  | nil =>
      obtain rfl : [] = ys := Option.some.inj h
      rfl
  | cons x xs ih =>
      rw [List.mapM_cons] at h
      obtain ⟨y, hy, h⟩ := Option.bind_eq_some_iff.mp h
      obtain ⟨zs, hzs, h⟩ := Option.bind_eq_some_iff.mp h
      obtain rfl : y :: zs = ys := Option.some.inj h
      rw [List.map_cons, hg x List.mem_cons_self y hy,
        ih hzs fun z hz => hg z (List.mem_cons_of_mem x hz)]

/-- A tree is the tree of its JSON value. -/
theorem ofJson_toJson? {t : Tree} {j : Json} (h : toJson? t = some j) : ofJson j = t := by
  induction t using of_parts generalizing j with
  | leaf v =>
      unfold toJson? at h
      rw [fold] at h
      cases v with
      | str s =>
          obtain ⟨u, hu, rfl⟩ := Option.map_eq_some_iff.mp h
          rw [ofJson, CodeText.ofString_of_text? hu]
      | nonFinite text => exact absurd h (by simp)
      | bytes data => exact absurd h (by simp)
      | _ =>
          rw [← Option.some.inj h]
          rfl
  | sequence tuple items ih =>
      obtain ⟨rfl, vs, hvs, rfl⟩ := toJson?_sequence_eq_some h
      rw [ofJson, ofItems_eq_map, map_of_mapM hvs fun t ht v hv => ih t ht hv]
  | dict entries ih =>
      obtain ⟨es, hes, rfl⟩ := toJson?_dict_eq_some h
      rw [ofJson, ofEntries_eq_map]
      congr 1
      refine map_of_mapM hes fun e he e' he' => ?_
      obtain ⟨k, hk, he'⟩ := Option.bind_eq_some_iff.mp he'
      obtain ⟨v, hv, rfl⟩ := Option.map_eq_some_iff.mp he'
      rw [ih e he hv, CodeText.ofString_of_text? hk]

/-- The texts of a tree with a JSON value can be written. -/
theorem encodable_of_toJson? {t : Tree} {j : Json} (h : toJson? t = some j) :
    t.encodable = true := by
  induction t using of_parts generalizing j with
  | leaf v =>
      unfold encodable
      rw [check_leaf]
      cases v with
      | str s =>
          unfold toJson? at h
          rw [fold] at h
          obtain ⟨u, hu, -⟩ := Option.map_eq_some_iff.mp h
          show (CodeText.text? s).isSome = true
          rw [hu]
          rfl
      | _ => rfl
  | sequence tuple items ih =>
      obtain ⟨-, vs, hvs, -⟩ := toJson?_sequence_eq_some h
      refine check_sequence.mpr ⟨fun _ => rfl, fun t ht => ?_⟩
      obtain ⟨v, -, hv⟩ := (mem_of_mapM hvs).1 t ht
      exact ih t ht hv
  | dict entries ih =>
      obtain ⟨es, hes, -⟩ := toJson?_dict_eq_some h
      have hentry : ∀ e ∈ entries,
          (CodeText.text? e.1).isSome = true ∧ e.2.encodable = true := by
        intro e he
        obtain ⟨e', -, he'⟩ := (mem_of_mapM hes).1 e he
        obtain ⟨k, hk, he'⟩ := Option.bind_eq_some_iff.mp he'
        obtain ⟨v, hv, -⟩ := Option.map_eq_some_iff.mp he'
        exact ⟨by rw [hk]; rfl, ih e he hv⟩
      refine check_dict.mpr ⟨List.all_eq_true.mpr fun k hk => ?_, fun e he => (hentry e he).2⟩
      obtain ⟨e, he, rfl⟩ := List.mem_map.mp hk
      exact (hentry e he).1

/-- A plain tree whose texts can be written has a JSON value. -/
theorem exists_toJson? {t : Tree} (hplain : t.plain false = true) (hencodable : t.encodable = true) :
    ∃ j, toJson? t = some j := by
  have hmapM : ∀ {β γ : Type} {f : β → Option γ} {xs : List β},
      (∀ x ∈ xs, ∃ y, f x = some y) → ∃ ys, xs.mapM f = some ys := by
    intro β γ f xs hf
    induction xs with
    | nil => exact ⟨[], rfl⟩
    | cons x xs ih =>
        rw [List.forall_mem_cons] at hf
        obtain ⟨y, hy⟩ := hf.1
        obtain ⟨ys, hys⟩ := ih hf.2
        exact ⟨y :: ys, by rw [List.mapM_cons, hy, hys]; rfl⟩
  induction t using of_parts with
  | leaf v =>
      unfold plain at hplain
      unfold encodable at hencodable
      rw [check_leaf] at hplain hencodable
      cases v with
      | str s =>
          obtain ⟨u, hu⟩ := Option.isSome_iff_exists.mp hencodable
          refine ⟨.str u, ?_⟩
          show (CodeText.text? s).map Json.str = _
          rw [hu]
          rfl
      | nonFinite text => exact absurd hplain (by simp [isJson])
      | bytes data => exact absurd hplain (by simp [isJson])
      | _ => exact ⟨_, rfl⟩
  | sequence tuple items ih =>
      obtain ⟨htuple, hitems⟩ := check_sequence.mp hplain
      obtain ⟨-, htexts⟩ := check_sequence.mp hencodable
      obtain ⟨vs, hvs⟩ := hmapM fun t ht => ih t ht (hitems t ht) (htexts t ht)
      cases tuple with
      | true => exact absurd (htuple rfl) (by simp)
      | false => exact ⟨.arr vs, by rw [toJson?_list, hvs]; rfl⟩
  | dict entries ih =>
      obtain ⟨-, hentries⟩ := check_dict.mp hplain
      obtain ⟨hkeys, htexts⟩ := check_dict.mp hencodable
      obtain ⟨es, hes⟩ := hmapM (f := fun (e : CodeText × Tree) =>
        (CodeText.text? e.1).bind fun k => (toJson? e.2).map (k, ·)) fun e he => by
          obtain ⟨v, hv⟩ := ih e he (hentries e he) (htexts e he)
          obtain ⟨k, hk⟩ := Option.isSome_iff_exists.mp
            (List.all_eq_true.mp hkeys e.1 (List.mem_map_of_mem he))
          exact ⟨(k, v), by rw [hk, hv]; rfl⟩
      exact ⟨.obj es, by rw [toJson?_dict, hes]; rfl⟩

/-- The canonical forms of JSON and of trees agree. -/
theorem canon_ofJson {j : Json} (h : (ofJson j).distinct = true) :
    (ofJson j.canon).canon = (ofJson j).canon := by
  induction j using json_induct with
  | arr items ih =>
      rw [ofJson, ofItems_eq_map] at h
      obtain ⟨-, hitems⟩ := check_sequence.mp h
      rw [Json.canon, Json.canonItems_eq_map, ofJson, ofJson, ofItems_eq_map, ofItems_eq_map,
        canon_sequence, canon_sequence, List.map_map, List.map_map, List.map_map]
      congr 1
      exact List.map_congr_left fun v hv => ih v hv (hitems _ (List.mem_map_of_mem hv))
  | obj entries ih =>
      rw [ofJson, ofEntries_eq_map] at h
      obtain ⟨hnodup, hentries⟩ := check_dict.mp h
      rw [Json.canon, Json.canonEntries_eq_map, ofJson, ofJson, ofEntries_eq_map,
        ofEntries_eq_map, canon_dict, canon_dict, List.map_map, List.map_map]
      congr 1
      have hperm := (Dict.sort_perm (entries.map fun e => (e.1, e.2.canon))).map
        ((fun e : CodeText × Tree => (e.1, e.2.canon)) ∘
          fun e : String × Json => (CodeText.ofString e.1, ofJson e.2))
      have hsame : (entries.map fun e => (e.1, e.2.canon)).map
          ((fun e : CodeText × Tree => (e.1, e.2.canon)) ∘
            fun e : String × Json => (CodeText.ofString e.1, ofJson e.2)) =
          entries.map ((fun e : CodeText × Tree => (e.1, e.2.canon)) ∘
            fun e : String × Json => (CodeText.ofString e.1, ofJson e.2)) := by
        rw [List.map_map]
        refine List.map_congr_left fun e he => ?_
        exact congrArg (CodeText.ofString e.1, ·)
          (ih e he (hentries _ (List.mem_map_of_mem (f := fun e : String × Json =>
            (CodeText.ofString e.1, ofJson e.2)) he)))
      rw [hsame] at hperm
      refine (Dict.WF.sort_eq_of_perm ?_ hperm.symm).symm
      rw [← List.map_map]
      unfold Dict.WF
      rw [keys_map_entries]
      exact of_decide_eq_true hnodup
  | _ => rfl

/-! ## 2.  The library -/

/-- The pieces of the canonical text of a tree; a text that cannot be written stands for
the others. -/
def canonicalPieces (t : Tree) : List CodeText :=
  match toJson? t with
  | some j => [CodeText.ofString (String.ofList (Json.dumps j))]
  | none => [[⟨0xD800, by decide⟩]]

/-- The tree has this canonical text. -/
def Written (s : CodeText) (t : Tree) : Prop :=
  t.plain false = true ∧ t.distinct = true ∧ t.encodable = true ∧ (canonicalPieces t).flatten = s

open Classical in
/-- Canonical JSON: it is read as a tree that is written so. -/
noncomputable def canonicalJson : JsonLibrary where
  iterencode := canonicalPieces
  loads s := if h : ∃ t, Written s t then some h.choose.canon else none
  str _ := []

theorem flatten_canonicalPieces {t : Tree} {j : Json} (h : toJson? t = some j) :
    (canonicalPieces t).flatten = CodeText.ofString (String.ofList (Json.dumps j)) := by
  unfold canonicalPieces
  rw [h]
  exact List.flatten_singleton

theorem ofString_injective {s t : String} (h : CodeText.ofString s = CodeText.ofString t) : s = t :=
  key_injective h

theorem canon_eq_of_written {s : CodeText} {t u : Tree} (ht : Written s t) (hu : Written s u) :
    t.canon = u.canon := by
  obtain ⟨hplain, hdistinct, hencodable, rfl⟩ := ht
  obtain ⟨hplain', hdistinct', hencodable', htext⟩ := hu
  obtain ⟨j, hj⟩ := exists_toJson? hplain hencodable
  obtain ⟨k, hk⟩ := exists_toJson? hplain' hencodable'
  rw [flatten_canonicalPieces hj, flatten_canonicalPieces hk] at htext
  have hdumps := String.ofList_injective (ofString_injective htext)
  have hcanon := Json.dumps_eq_dumps_iff.mp hdumps
  rw [← ofJson_toJson? hj] at hdistinct ⊢
  rw [← ofJson_toJson? hk] at hdistinct' ⊢
  rw [← canon_ofJson hdistinct, ← canon_ofJson hdistinct', hcanon]

theorem loads_canonicalJson {s : CodeText} {t : Tree} (h : Written s t) :
    canonicalJson.loads s = some t.canon := by
  have hexists : ∃ u, Written s u := ⟨t, h⟩
  unfold canonicalJson
  dsimp only
  rw [dif_pos hexists, canon_eq_of_written hexists.choose_spec h]

/-- **Canonical JSON is lossless.** -/
theorem lossless_canonicalJson : canonicalJson.Lossless where
  reads t hplain hdistinct hencodable :=
    loads_canonicalJson ⟨hplain, hdistinct, hencodable, rfl⟩
  verbatim t _ _ hsome := by
    cases hj : toJson? t with
    | some j => exact encodable_of_toJson? hj
    | none =>
        have hpieces : (canonicalJson.iterencode t).flatten = [⟨0xD800, by decide⟩] := by
          show (canonicalPieces t).flatten = _
          unfold canonicalPieces
          rw [hj]
          rfl
        rw [hpieces] at hsome
        exact absurd hsome (by decide)

/-! ## 3.  The codec of a capsule -/

/-- **The codec of portable capsules.**  Over a lossless library: what a serializer of
plain values captured is a tree that can be restored exactly, and `restore` gives the equal
value of the same types at every position (`canon` only sorts keys), but for JSON beyond
the limits of its guard; and a value that cannot be restored exactly is excluded with a
reason, unless a serializer takes it and its bytes exceed the limit before the text that
cannot be written. -/
theorem capsule_codec {L : JsonLibrary} (hL : L.Lossless)
    (other : String → Obj → List (Option ByteArray)) (available : String → Bool) (heap : Heap)
    (limits : CapsuleLimits) (value : Obj)
    (hforeign : ∀ id, serializerFor available heap limits value ≠ .ok (.foreign id)) :
    (∀ serializer raw,
      captureValue L other available heap limits value = .captured serializer raw →
        ∃ t, Denotes heap value t ∧ Restorable limits t ∧
          ∀ foreign name,
            (Guarded serializer t → restoreValue L foreign name serializer raw = .ok t.canon) ∧
            (¬ Guarded serializer t → restoreValue L foreign name serializer raw =
              .error s!"kernel capsule variable '{name}' is not strict JSON")) ∧
      ((¬ ∃ t, Denotes heap value t ∧ Restorable limits t) →
        (¬ Overlong L other available heap limits value →
          ∃ reason, reason ≠ "" ∧
            captureValue L other available heap limits value = .excluded reason) ∧
        (Overlong L other available heap limits value →
          (∃ t, Denotes heap value t ∧ t.encodable = false) ∧ ∃ n, limits.maxValueBytes < n ∧
            captureValue L other available heap limits value = .tooLarge n)) := by
  have hplain : ∀ serializer raw,
      captureValue L other available heap limits value = .captured serializer raw →
      ∀ id, serializer ≠ .foreign id := by
    rintro serializer raw h id rfl
    exact hforeign id (captureValue_eq_captured h).1
  constructor
  · intro serializer raw h
    exact restore_captured hL h (hplain serializer raw h)
  · intro hnot
    exact ⟨excluded_of_not_restorable hL hnot hforeign, tooLarge_of_overlong hnot hforeign⟩

/-! ## 4.  Two captures -/

/-- No codec of another type writes anything. -/
def noOther (_ : String) (_ : Obj) : List (Option ByteArray) := []

/-- `["é", [True, 1]]` -/
def sampleHeap : Heap
  | 0 => .sequence false [.scalar (.str (CodeText.ofString "é")), .ref 1]
  | _ => .sequence false [.scalar (.bool true), .scalar (.int 1)]

/-- The default limits. -/
def sampleLimits : CapsuleLimits := ⟨64, 1000000, 8 * 1024 * 1024⟩

def CaptureOutcome.isCaptured : CaptureOutcome → Bool
  | captured .. => true
  | _ => false

/-- A nested list is captured and restored. -/
theorem capsule_codec_nested :
    ∃ serializer raw t,
      captureValue canonicalJson noOther (fun _ => false) sampleHeap sampleLimits (.ref 0) =
        .captured serializer raw ∧
      Denotes sampleHeap (.ref 0) t ∧
      ∀ foreign name, Guarded serializer t →
        restoreValue canonicalJson foreign name serializer raw = .ok t.canon := by
  have hforeign : ∀ id, serializerFor (fun _ => false) sampleHeap sampleLimits (.ref 0) ≠
      .ok (.foreign id) := by
    have hjson : serializerFor (fun _ => false) sampleHeap sampleLimits (.ref 0) =
        .ok .jsonStrict := by
      decide +kernel
    intro id
    rw [hjson]
    simp
  have hcaptured : (captureValue canonicalJson noOther (fun _ => false) sampleHeap sampleLimits
      (.ref 0)).isCaptured = true := by
    decide +kernel
  cases hcapture : captureValue canonicalJson noOther (fun _ => false) sampleHeap sampleLimits
      (.ref 0) with
  | captured serializer raw =>
      obtain ⟨t, ht, -, hrestore⟩ := (capsule_codec lossless_canonicalJson noOther (fun _ => false)
        sampleHeap sampleLimits (.ref 0) hforeign).1 serializer raw hcapture
      exact ⟨serializer, raw, t, rfl, ht, fun foreign name => (hrestore foreign name).1⟩
  | excluded reason =>
      rw [hcapture] at hcaptured
      exact absurd hcaptured (by simp [CaptureOutcome.isCaptured])
  | tooLarge n =>
      rw [hcapture] at hcaptured
      exact absurd hcaptured (by simp [CaptureOutcome.isCaptured])

/-- A list of nulls. -/
def nullHeap (n : Nat) : Heap := fun _ => .sequence false (List.replicate n (.scalar .none))

def nullTree (n : Nat) : Tree := .sequence false (List.replicate n (.leaf .none))

theorem size_nullTree (n : Nat) : (nullTree n).size = n + 1 := by
  unfold nullTree
  rw [size_sequence, List.map_replicate, List.sum_replicate_nat, size_leaf, Nat.mul_one,
    Nat.add_comm]

theorem plain_nullTree (n : Nat) : (nullTree n).plain false = true := by
  refine check_sequence.mpr ⟨fun h => absurd h (by simp), fun t ht => ?_⟩
  obtain ⟨-, rfl⟩ := List.mem_replicate.mp ht
  rw [check_leaf]
  rfl

theorem mapM_replicate_of {β γ : Type} {f : β → Option γ} {x : β} {y : γ} (h : f x = some y)
    (n : Nat) : (List.replicate n x).mapM f = some (List.replicate n y) := by
  induction n with
  | zero => rfl
  | succ n ih => rw [List.replicate_succ, List.mapM_cons, h, ih, List.replicate_succ]; rfl

theorem read_nullHeap (n left : Nat) :
    read (nullHeap n).shape (left + 2) ((nullHeap n).shape (.ref 0)) = some (nullTree n) := by
  have hobject : nullHeap n 0 = .sequence false (List.replicate n (.scalar .none)) := rfl
  rw [shape_sequence hobject, read_sequence,
    mapM_replicate_of (x := Obj.scalar .none) (y := Tree.leaf .none) rfl n]
  rfl

theorem serializerFor_nullHeap {n : Nat} {limits : CapsuleLimits} (available : String → Bool)
    (hdepth : 1 ≤ limits.maxDepth) (hsize : n + 1 ≤ max 1 limits.maxContainerItems) :
    serializerFor available (nullHeap n) limits (.ref 0) = .ok .jsonStrict := by
  have hobject : nullHeap n 0 = .sequence false (List.replicate n (.scalar .none)) := rfl
  obtain ⟨left, hleft⟩ := Nat.exists_eq_add_of_le' hdepth
  have hitems : ((List.replicate n (Obj.scalar .none)).map fun _ => 1).sum = n := by
    rw [List.map_replicate, List.sum_replicate_nat, Nat.mul_one]
  have hone : 0 + 1 + n = n + 1 := by omega
  have hvisit : visit (nullHeap n).shape (strictJsonWalker limits.maxDepth
      limits.maxContainerItems) (limits.maxDepth + 1) [] 0 ((nullHeap n).shape (.ref 0)) =
      .ok (0 + 1 + n) := by
    rw [shape_sequence hobject, hleft]
    unfold visit
    rw [if_neg (by
      show ¬ max 1 limits.maxContainerItems < 0 + 1
      omega)]
    show visitItems (fun k x => visit (nullHeap n).shape (strictJsonWalker (left + 1)
      limits.maxContainerItems) (left + 1) [0] k ((nullHeap n).shape x)) (0 + 1)
      (List.replicate n (.scalar .none)) = _
    refine (visitItems_of (g := fun _ => 1) (m := max 1 limits.maxContainerItems) ?_ ?_).trans ?_
    · intro x hx k hk
      obtain ⟨-, rfl⟩ := List.mem_replicate.mp hx
      unfold visit
      rw [if_neg (by
        show ¬ max 1 limits.maxContainerItems < k + 1
        exact Nat.not_lt.mpr hk)]
      rfl
    · rw [hitems, hone]
      exact hsize
    · rw [hitems]
  have hanalysis : (strictJsonWalker limits.maxDepth limits.maxContainerItems).analysis
      (nullHeap n).shape ((nullHeap n).shape (.ref 0)) = none := by
    unfold Walker.analysis
    rw [show (strictJsonWalker limits.maxDepth limits.maxContainerItems).maxDepth + 1 =
      limits.maxDepth + 1 from rfl, hvisit]
  unfold serializerFor
  dsimp only
  rw [hanalysis, hobject]
  rfl

theorem utf8ByteSize_le (cs : List Char) : (String.ofList cs).utf8ByteSize ≤ 4 * cs.length := by
  induction cs with
  | nil => exact Nat.zero_le _
  | cons c cs ih =>
      have hcons : String.ofList (c :: cs) = String.singleton c ++ String.ofList cs := by
        rw [String.singleton_eq_ofList, ← String.ofList_append, List.singleton_append]
      have hchar := Char.utf8Size_le_four c
      rw [hcons, String.utf8ByteSize_append, String.utf8ByteSize_singleton, List.length_cons]
      omega

/-- The text of `n` nulls. -/
theorem length_dumps_nulls (n : Nat) :
    (Json.dumps (.arr (List.replicate n .null))).length ≤ 5 * n + 2 := by
  have hitems : ∀ m, (Json.renderItems (List.replicate m .null)).length = 5 * m + 1 := by
    intro m
    induction m with
    | zero => rfl
    | succ m ih =>
        rw [List.replicate_succ, Json.renderItems, List.length_cons, List.length_append, ih]
        show 4 + (5 * m + 1) + 1 = _
        omega
  unfold Json.dumps
  rw [Json.canon, Json.canonItems_eq_map, List.map_replicate]
  cases n with
  | zero => exact Nat.le_refl _
  | succ n =>
      rw [List.replicate_succ, Json.canon, Json.render, List.length_cons, List.length_append,
        hitems]
      show 4 + (5 * n + 1) + 1 ≤ _
      omega

theorem text?_ofString (s : String) : CodeText.text? (CodeText.ofString s) = some s := by
  have hchar : ∀ c : Char, (CodePoint.ofChar c).char? = some c := by
    intro c
    unfold CodePoint.char?
    rw [dif_pos (show ((CodePoint.ofChar c : CodePoint) : Nat).isValidChar from c.valid)]
    exact congrArg some (Char.ext (UInt32.toNat_inj.mp rfl))
  have hlist : ∀ cs : List Char, (cs.map CodePoint.ofChar).mapM CodePoint.char? = some cs := by
    intro cs
    induction cs with
    | nil => rfl
    | cons c cs ih =>
        rw [List.map_cons, List.mapM_cons, hchar, ih]
        rfl
  unfold CodeText.text? CodeText.ofString
  rw [hlist]
  exact congrArg some String.ofList_toList

theorem encode_ofString (s : String) : CodeText.encode (CodeText.ofString s) = some s.toByteArray := by
  unfold CodeText.encode
  rw [text?_ofString]
  rfl

/-- A list of nulls is captured when its text fits. -/
theorem captureEncoding_nulls {n : Nat} {limits : CapsuleLimits} (hdepth : 1 ≤ limits.maxDepth)
    (hbytes : 4 * (5 * n + 2) ≤ limits.maxValueBytes) :
    ∃ raw, retain limits.maxValueBytes 0 ByteArray.empty
        (utf8Chunks (some (canonicalPieces (nullTree n)))) = .ok raw ∧
      captureEncoding canonicalJson noOther (nullHeap n) limits (.ref 0) .jsonStrict = .ok raw := by
  have hjson : toJson? (nullTree n) = some (.arr (List.replicate n .null)) := by
    unfold nullTree
    rw [toJson?_list, mapM_replicate_of (x := Tree.leaf .none) (y := Json.null) rfl n]
    rfl
  have hpieces : canonicalPieces (nullTree n) =
      [CodeText.ofString (String.ofList (Json.dumps (.arr (List.replicate n .null))))] := by
    unfold canonicalPieces
    rw [hjson]
  have hchunks : utf8Chunks (some (canonicalPieces (nullTree n))) =
      [some (String.ofList (Json.dumps (.arr (List.replicate n .null)))).toByteArray] := by
    rw [hpieces]
    unfold utf8Chunks
    exact congrArg (fun chunk => [chunk]) (encode_ofString _)
  have hfits : ¬ limits.maxValueBytes <
      0 + (String.ofList (Json.dumps (.arr (List.replicate n .null)))).toByteArray.size := by
    have hsize := utf8ByteSize_le (Json.dumps (.arr (List.replicate n .null)))
    have hlength := length_dumps_nulls n
    rw [String.size_toByteArray]
    omega
  have hread : read (nullHeap n).shape (limits.maxDepth + 1) ((nullHeap n).shape (.ref 0)) =
      some (nullTree n) := by
    obtain ⟨left, hleft⟩ := Nat.exists_eq_add_of_le' hdepth
    rw [hleft]
    exact read_nullHeap n left
  refine ⟨ByteArray.empty ++ (String.ofList (Json.dumps (.arr
    (List.replicate n .null)))).toByteArray, ?_, ?_⟩
  · rw [hchunks, retain, if_neg hfits, retain]
  · unfold captureEncoding encodedChunks
    dsimp only
    rw [hread]
    show retain _ _ _ (utf8Chunks (some (canonicalPieces (nullTree n)))) = _
    rw [hchunks, retain, if_neg hfits, retain]

/-- Limits beyond those of the guard let a list pass that the guard does not. -/
theorem nulls_not_restored {n : Nat} {limits : CapsuleLimits} (hdepth : 1 ≤ limits.maxDepth)
    (hsize : n + 1 ≤ max 1 limits.maxContainerItems)
    (hbytes : 4 * (5 * n + 2) ≤ limits.maxValueBytes) (hlarge : 10000000 < n + 1) :
    ∃ raw,
      captureValue canonicalJson noOther (fun _ => false) (nullHeap n) limits (.ref 0) =
          .captured .jsonStrict raw ∧
        ∀ foreign name, restoreValue canonicalJson foreign name .jsonStrict raw =
          .error s!"kernel capsule variable '{name}' is not strict JSON" := by
  obtain ⟨raw, hretain, hcapture⟩ := captureEncoding_nulls hdepth hbytes
  refine ⟨raw, ?_, fun foreign name => ?_⟩
  · unfold captureValue
    rw [serializerFor_nullHeap (fun _ => false) hdepth hsize]
    dsimp only
    rw [hcapture]
  · have hdistinct : (nullTree n).distinct = true :=
      @distinct_read (nullHeap n) 2 (.ref 0) _ (read_nullHeap n 0)
    refine (restore_json lossless_canonicalJson (plain_nullTree n) hdistinct hretain foreign
      name).2.2 fun hguarded => ?_
    have hguard := (hguarded rfl).2
    rw [size_nullTree] at hguard
    exact absurd hlarge (Nat.not_lt.mpr hguard)

/-- Limits that let twenty million values pass, and 256 MiB. -/
def largeLimits : CapsuleLimits := ⟨64, 20000000, 268435456⟩

theorem utf8ByteSize_ge (cs : List Char) : cs.length ≤ (String.ofList cs).utf8ByteSize := by
  induction cs with
  | nil => exact Nat.zero_le _
  | cons c cs ih =>
      have hcons : String.ofList (c :: cs) = String.singleton c ++ String.ofList cs := by
        rw [String.singleton_eq_ofList, ← String.ofList_append, List.singleton_append]
      have hchar := Char.utf8Size_pos c
      rw [hcons, String.utf8ByteSize_append, String.utf8ByteSize_singleton, List.length_cons]
      omega

/-- A whole piece, and one more code point. -/
theorem slices_append_singleton {α : Type} {n : Nat} (hn : 2 ≤ n) {s : List α} (hs : s.length = n) (p : α) :
    slices n (s ++ [p]) = [s, [p]] := by
  have hcount : ((s ++ [p]).length + (n - 1)) / n = 2 := by
    rw [List.length_append, hs, List.length_singleton, show n + 1 + (n - 1) = n * 2 by omega]
    exact Nat.mul_div_cancel_left 2 (by omega)
  unfold slices
  rw [hcount]
  show [((s ++ [p]).drop (0 * n)).take n, ((s ++ [p]).drop (1 * n)).take n] = _
  rw [Nat.zero_mul, Nat.one_mul, List.drop_zero, ← hs, List.take_left, List.drop_left]
  exact congrArg (fun t => [s, t]) (List.take_of_length_le (by rw [List.length_singleton]; omega))

/-- A surrogate, which UTF-8 has no bytes for. -/
def surrogate : CodePoint := ⟨0xD800, by decide⟩

/-- A text of letters that ends in a surrogate. -/
def surrogateText : CodeText :=
  CodeText.ofString (String.ofList (List.replicate (64 * 1024) 'a')) ++ [surrogate]

theorem surrogateText_not_restorable (heap : Heap) (limits : CapsuleLimits) :
    ¬ ∃ t, Denotes heap (.scalar (.str surrogateText)) t ∧ Restorable limits t := by
  rintro ⟨t, ⟨left, hread⟩, hencodable, -⟩
  cases left with
  | zero => cases hread
  | succ left =>
      obtain rfl := Option.some.inj hread
      unfold encodable at hencodable
      rw [check_leaf] at hencodable
      obtain ⟨u, hu⟩ := Option.isSome_iff_exists.mp (show (CodeText.text? surrogateText).isSome from hencodable)
      obtain ⟨v, w, -, hw, -⟩ := CodeText.text?_append hu
      have hnone : CodeText.text? [surrogate] = none := by decide
      exact absurd (hnone.symm.trans hw) (by simp)

/-- The limit is reached before the surrogate. -/
theorem surrogateText_overlong {limits : CapsuleLimits} (hbytes : limits.maxValueBytes < 64 * 1024)
    (heap : Heap) :
    Overlong canonicalJson noOther (fun _ => false) heap limits (.scalar (.str surrogateText)) := by
  have hslices : slices (64 * 1024) surrogateText =
      [CodeText.ofString (String.ofList (List.replicate (64 * 1024) 'a')), [surrogate]] := by
    refine slices_append_singleton (by norm_num) ?_ surrogate
    rw [CodeText.ofString, List.length_map, String.toList_ofList, List.length_replicate]
  refine ⟨.textUtf8, [(String.ofList (List.replicate (64 * 1024) 'a')).toByteArray], [], rfl, ?_, ?_⟩
  · unfold encodedChunks
    dsimp only
    rw [hslices]
    show [CodeText.encode _, CodeText.encode [surrogate]] = _
    rw [encode_ofString]
    rfl
  · have hsize := utf8ByteSize_ge (List.replicate (64 * 1024) 'a')
    rw [List.length_replicate] at hsize
    rw [List.map_singleton, List.sum_singleton, String.size_toByteArray]
    omega

/-- Limits that let 32 KiB pass. -/
def smallLimits : CapsuleLimits := ⟨64, 1000000, 32 * 1024⟩

/-- **A captured list is not restored, and a text is not excluded.**  The limits let ten million and one
nulls pass; the guard of `restore` does not.  A text that cannot be written is too large before it is known
that it cannot. -/
theorem captured_not_restored :
    (∃ raw,
      captureValue canonicalJson noOther (fun _ => false) (nullHeap 10000001) largeLimits
          (.ref 0) = .captured .jsonStrict raw ∧
        ∀ foreign name, restoreValue canonicalJson foreign name .jsonStrict raw =
          .error s!"kernel capsule variable '{name}' is not strict JSON") ∧
    (¬ ∃ t, Denotes sampleHeap (.scalar (.str surrogateText)) t ∧ Restorable smallLimits t) ∧
      ∀ reason, captureValue canonicalJson noOther (fun _ => false) sampleHeap smallLimits
        (.scalar (.str surrogateText)) ≠ .excluded reason := by
  refine ⟨nulls_not_restored ?_ ?_ ?_ ?_, surrogateText_not_restorable _ _, fun reason hexcluded => ?_⟩
  · show 1 ≤ 64
    norm_num
  · show 10000001 + 1 ≤ max 1 20000000
    norm_num
  · show 4 * (5 * 10000001 + 2) ≤ 268435456
    norm_num
  · norm_num
  · have hoverlong := @surrogateText_overlong smallLimits (by decide) sampleHeap
    obtain ⟨-, n, -, htooLarge⟩ := tooLarge_of_overlong (surrogateText_not_restorable sampleHeap smallLimits)
      (fun id hid => by cases hid) hoverlong
    rw [hexcluded] at htooLarge
    cases htooLarge

end KernelRuntime
end VariantOne
