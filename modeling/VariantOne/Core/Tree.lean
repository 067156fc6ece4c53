import Mathlib.Algebra.BigOperators.Group.List.Basic
import VariantOne.Lib.CodePoints
import VariantOne.Lib.Json

/-!
# Trees of plain values

A `Tree` is a plain value of the host language with everything below it: scalars,
tuples and lists, and dictionaries with text keys.  What is computed bottom up is a
`fold`: the number of values, the depth, a check at every position, and the canonical
form, in which the keys of every dictionary are sorted.  Two trees with one canonical
form are equal values of the same types at every position.
-/

namespace VariantOne

/-- A value that holds no others. -/
inductive Scalar where
  | none
  | bool (b : Bool)
  | int (i : Int)
  | float (x : FloatText)
  | nonFinite (text : String)
  | str (s : CodeText)
  | bytes (data : ByteArray)
  deriving DecidableEq

/-- A value and everything below it.  A sequence is a tuple or a list. -/
inductive Tree where
  | leaf (v : Scalar)
  | sequence (tuple : Bool) (items : List Tree)
  | dict (entries : List (CodeText × Tree))

namespace Tree

/-! ## Folds -/

section Fold

variable {β : Type} (leaf : Scalar → β) (sequence : Bool → List β → β)
  (dict : List (CodeText × β) → β)

mutual

/-- What is computed bottom up. -/
def fold : Tree → β
  | .leaf v => leaf v
  | .sequence tuple items => sequence tuple (foldItems items)
  | .dict entries => dict (foldEntries entries)

def foldItems : List Tree → List β
  | [] => []
  | t :: ts => fold t :: foldItems ts

def foldEntries : List (CodeText × Tree) → List (CodeText × β)
  | [] => []
  | (k, t) :: es => (k, fold t) :: foldEntries es

end

theorem foldItems_eq_map (ts : List Tree) :
    foldItems leaf sequence dict ts = ts.map (fold leaf sequence dict) := by
  induction ts with
  | nil => rfl
  | cons t ts ih => rw [foldItems, ih, List.map_cons]

theorem foldEntries_eq_map (es : List (CodeText × Tree)) :
    foldEntries leaf sequence dict es = es.map fun e => (e.1, fold leaf sequence dict e.2) := by
  induction es with
  | nil => rfl
  | cons e es ih =>
      obtain ⟨k, t⟩ := e
      rw [foldEntries, ih, List.map_cons]

theorem fold_sequence (tuple : Bool) (items : List Tree) :
    fold leaf sequence dict (.sequence tuple items) =
      sequence tuple (items.map (fold leaf sequence dict)) := by
  rw [fold, foldItems_eq_map]

theorem fold_dict (entries : List (CodeText × Tree)) :
    fold leaf sequence dict (.dict entries) =
      dict (entries.map fun e => (e.1, fold leaf sequence dict e.2)) := by
  rw [fold, foldEntries_eq_map]

end Fold

/-- Induction over a tree: the values below a sequence or a dictionary come first. -/
@[elab_as_elim]
theorem of_parts {P : Tree → Prop} (leaf : ∀ v, P (.leaf v))
    (sequence : ∀ tuple items, (∀ t ∈ items, P t) → P (.sequence tuple items))
    (dict : ∀ entries, (∀ e ∈ entries, P e.2) → P (.dict entries)) (t : Tree) : P t :=
  @Tree.rec P (fun items => ∀ t ∈ items, P t) (fun entries => ∀ e ∈ entries, P e.2)
    (fun e => P e.2) leaf sequence dict (by simp) (fun _ _ ht hts => List.forall_mem_cons.mpr ⟨ht, hts⟩) (by simp)
    (fun _ _ he hes => List.forall_mem_cons.mpr ⟨he, hes⟩) (fun _ _ ht => ht) t

/-! ## Size and depth -/

/-- The number of values. -/
def size : Tree → Nat :=
  fold (fun _ => 1) (fun _ ns => 1 + ns.sum) fun es => 1 + (es.map Prod.snd).sum

/-- One more than the largest. -/
def above (ns : List Nat) : Nat := (ns.map (· + 1)).foldr max 0

/-- The number of steps down to the deepest value. -/
def depth : Tree → Nat := fold (fun _ => 0) (fun _ => above) fun es => above (es.map Prod.snd)

theorem size_leaf (v : Scalar) : size (.leaf v) = 1 := by
  rw [size, fold]

theorem size_sequence (tuple : Bool) (items : List Tree) :
    size (.sequence tuple items) = 1 + (items.map size).sum :=
  fold_sequence _ _ _ tuple items

theorem size_dict (entries : List (CodeText × Tree)) :
    size (.dict entries) = 1 + (entries.map fun e => size e.2).sum := by
  rw [size, fold_dict, List.map_map]
  rfl

theorem depth_leaf (v : Scalar) : depth (.leaf v) = 0 := by
  rw [depth, fold]

theorem depth_sequence (tuple : Bool) (items : List Tree) :
    depth (.sequence tuple items) = above (items.map depth) :=
  fold_sequence _ _ _ tuple items

theorem depth_dict (entries : List (CodeText × Tree)) :
    depth (.dict entries) = above (entries.map fun e => depth e.2) := by
  rw [depth, fold_dict, List.map_map]
  rfl

theorem above_le_iff {ns : List Nat} {m : Nat} : above ns ≤ m ↔ ∀ n ∈ ns, n + 1 ≤ m := by
  unfold above
  induction ns with
  | nil => simp
  | cons n ns ih => rw [List.map_cons, List.foldr_cons, max_le_iff, ih, List.forall_mem_cons]

theorem above_perm {ns ms : List Nat} (h : ns.Perm ms) : above ns = above ms := by
  apply le_antisymm
  · exact above_le_iff.mpr fun n hn => above_le_iff.mp (le_refl _) n (h.mem_iff.mp hn)
  · exact above_le_iff.mpr fun n hn => above_le_iff.mp (le_refl _) n (h.mem_iff.mpr hn)

/-! ## Checks -/

/-- Every scalar, and every list of keys, passes; a tuple only where tuples do. -/
def check (leaf : Scalar → Bool) (tuples : Bool) (keys : List CodeText → Bool) : Tree → Bool :=
  fold leaf (fun tuple bs => (!tuple || tuples) && bs.all id) fun es =>
    keys (Dict.keys es) && (es.map Prod.snd).all id

section Check

variable {leaf : Scalar → Bool} {tuples : Bool} {keys : List CodeText → Bool}

theorem check_leaf (v : Scalar) : check leaf tuples keys (.leaf v) = leaf v := by
  rw [check, fold]

theorem check_sequence {tuple : Bool} {items : List Tree} :
    check leaf tuples keys (.sequence tuple items) = true ↔
      (tuple = true → tuples = true) ∧ ∀ t ∈ items, check leaf tuples keys t = true := by
  rw [check, fold_sequence, Bool.and_eq_true, List.all_map, List.all_eq_true]
  cases tuple <;> simp

theorem keys_map_entries {β : Type} (f : Tree → β) (entries : List (CodeText × Tree)) :
    Dict.keys (entries.map fun e => (e.1, f e.2)) = Dict.keys entries := by
  unfold Dict.keys
  rw [List.map_map]
  rfl

theorem check_dict {entries : List (CodeText × Tree)} :
    check leaf tuples keys (.dict entries) = true ↔
      keys (Dict.keys entries) = true ∧ ∀ e ∈ entries, check leaf tuples keys e.2 = true := by
  rw [check, fold_dict, Bool.and_eq_true, keys_map_entries, List.map_map, List.all_map,
    List.all_eq_true]
  rfl

/-- What passes without tuples passes with them. -/
theorem check_tuples {t : Tree} (h : check leaf false keys t = true) :
    check leaf true keys t = true := by
  induction t using of_parts with
  | leaf v => rwa [check_leaf] at h ⊢
  | sequence tuple items ih =>
      obtain ⟨-, hitems⟩ := check_sequence.mp h
      exact check_sequence.mpr ⟨fun _ => rfl, fun t ht => ih t ht (hitems t ht)⟩
  | dict entries ih =>
      obtain ⟨hkeys, hentries⟩ := check_dict.mp h
      exact check_dict.mpr ⟨hkeys, fun e he => ih e he (hentries e he)⟩

end Check

/-- A scalar of JSON. -/
def isJson : Scalar → Bool
  | .none | .bool _ | .int _ | .float _ | .str _ => true
  | .nonFinite _ | .bytes _ => false

/-- The scalar can be written in UTF-8. -/
def canEncode : Scalar → Bool
  | .str s => (CodeText.text? s).isSome
  | _ => true

/-- The tree is built from JSON scalars, lists and dictionaries; and tuples, if these
are let in. -/
def plain (tuples : Bool) : Tree → Bool := check isJson tuples fun _ => true

/-- The keys of every dictionary are distinct. -/
def distinct : Tree → Bool := check (fun _ => true) true fun ks => decide ks.Nodup

/-- Every text can be written in UTF-8. -/
def encodable : Tree → Bool :=
  check canEncode true fun ks => ks.all fun k => (CodeText.text? k).isSome

/-! ## The canonical form -/

/-- The keys of every dictionary sorted. -/
def canon : Tree → Tree := fold .leaf .sequence fun es => .dict (Dict.sort es)

theorem canon_leaf (v : Scalar) : canon (.leaf v) = .leaf v := by
  rw [canon, fold]

theorem canon_sequence (tuple : Bool) (items : List Tree) :
    canon (.sequence tuple items) = .sequence tuple (items.map canon) :=
  fold_sequence _ _ _ tuple items

theorem canon_dict (entries : List (CodeText × Tree)) :
    canon (.dict entries) = .dict (Dict.sort (entries.map fun e => (e.1, canon e.2))) :=
  fold_dict _ _ _ entries

theorem size_canon (t : Tree) : size (canon t) = size t := by
  induction t using of_parts with
  | leaf v => rw [canon_leaf]
  | sequence tuple items ih =>
      rw [canon_sequence, size_sequence, size_sequence, List.map_map]
      congr 2
      exact List.map_congr_left ih
  | dict entries ih =>
      have hperm := (Dict.sort_perm (entries.map fun e => (e.1, canon e.2))).map
        fun e => size e.2
      rw [canon_dict, size_dict, size_dict, hperm.sum_eq, List.map_map]
      congr 2
      exact List.map_congr_left ih

theorem depth_canon (t : Tree) : depth (canon t) = depth t := by
  induction t using of_parts with
  | leaf v => rw [canon_leaf]
  | sequence tuple items ih =>
      rw [canon_sequence, depth_sequence, depth_sequence, List.map_map]
      congr 1
      exact List.map_congr_left ih
  | dict entries ih =>
      have hperm := (Dict.sort_perm (entries.map fun e => (e.1, canon e.2))).map
        fun e => depth e.2
      rw [canon_dict, depth_dict, depth_dict, above_perm hperm, List.map_map]
      congr 1
      exact List.map_congr_left ih

theorem plain_canon {tuples : Bool} {t : Tree} (h : plain tuples t = true) :
    plain tuples (canon t) = true := by
  induction t using of_parts with
  | leaf v => rwa [canon_leaf]
  | sequence tuple items ih =>
      obtain ⟨htuple, hitems⟩ := check_sequence.mp h
      rw [canon_sequence]
      refine check_sequence.mpr ⟨htuple, fun t ht => ?_⟩
      obtain ⟨u, hu, rfl⟩ := List.mem_map.mp ht
      exact ih u hu (hitems u hu)
  | dict entries ih =>
      obtain ⟨-, hentries⟩ := check_dict.mp h
      rw [canon_dict]
      refine check_dict.mpr ⟨rfl, fun e he => ?_⟩
      obtain ⟨e', he', rfl⟩ := List.mem_map.mp ((Dict.sort_perm _).mem_iff.mp he)
      exact ih e' he' (hentries e' he')

end Tree
end VariantOne
