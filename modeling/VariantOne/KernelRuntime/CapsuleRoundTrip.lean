import VariantOne.KernelRuntime.Capsule

/-!
# What is captured is restored

A walker that lets a value pass has seen all of it: the value is a tree, within the
walker's limits (`read_of_visit`).  The document a tuple is written as is decoded to the
tuple (`portableTreeDecode_encode`).  So every captured value is restored
(`restore_captured`), but for one guard: `restore` looks at decoded JSON with limits of its
own.

A value that cannot be restored exactly is refused by the serializers, or one of them takes
it and cannot write one of its texts (`denotes_of_serializerFor`).  What is said of it then
depends on the bytes that come before that text (`Overlong`): within the limit it is
excluded (`excluded_of_not_restorable`), beyond it the capture is given up
(`tooLarge_of_overlong`).  That one of the texts is in the way follows from the first part:
were there none, a larger limit would let the value be captured.
-/

namespace VariantOne
namespace KernelRuntime

open VariantOne.Tree

/-! ## 1.  What a walker has seen -/

/-- A computation that gives back what it is given. -/
theorem mapM_eq_self {β : Type} {f : β → Option β} {xs ys : List β} (h : xs.mapM f = some ys)
    (hf : ∀ x ∈ xs, ∀ y, f x = some y → y = x) : ys = xs := by
  induction xs generalizing ys with
  | nil => exact (Option.some.inj h).symm
  | cons x xs ih =>
      rw [List.mapM_cons] at h
      obtain ⟨y, hy, h⟩ := Option.bind_eq_some_iff.mp h
      obtain ⟨zs, hzs, h⟩ := Option.bind_eq_some_iff.mp h
      rw [← Option.some.inj h, hf x List.mem_cons_self y hy,
        ih hzs fun z hz => hf z (List.mem_cons_of_mem x hz)]

section Walk

variable {α : Type} {view : α → Shape α} {w : Walker}

theorem read_zero (item : Shape α) : read view 0 item = none := rfl

theorem read_other (left : Nat) : read view (left + 1) .other = none := rfl

theorem read_sequence (left : Nat) (tuple : Bool) (id : Option Nat) (items : List α) :
    read view (left + 1) (.sequence tuple id items) =
      (items.mapM fun x => read view left (view x)).map (.sequence tuple) := rfl

theorem read_dict (left : Nat) (id : Option Nat) (entries : List (Option CodeText × α)) :
    read view (left + 1) (.dict id entries) =
      (entries.mapM fun (e : Option CodeText × α) => e.1.bind fun k =>
        (read view left (view e.2)).map (k, ·)).map .dict := rfl

theorem visitItems_ok {f : Nat → α → Except String Nat} {rd : α → Option Tree} {P : Tree → Prop}
    {limit : Nat} (hf : ∀ n x m, f n x = .ok m →
      ∃ t, rd x = some t ∧ P t ∧ m = n + t.size ∧ m ≤ limit) {items : List α} {n m : Nat}
    (hn : n ≤ limit) (h : visitItems f n items = .ok m) :
    ∃ ts, items.mapM rd = some ts ∧ (∀ t ∈ ts, P t) ∧ m = n + (ts.map size).sum ∧ m ≤ limit := by
  induction items generalizing n with
  | nil =>
      obtain rfl := Except.ok.inj h
      exact ⟨[], rfl, by simp, by simp, hn⟩
  | cons x items ih =>
      unfold visitItems at h
      split at h
      · exact absurd h (by simp)
      · rename_i n' hx
        obtain ⟨t, ht, hP, rfl, hle⟩ := hf n x n' hx
        obtain ⟨ts, hts, hPs, rfl, hm⟩ := ih hle h
        refine ⟨t :: ts, ?_, List.forall_mem_cons.mpr ⟨hP, hPs⟩, ?_, hm⟩
        · rw [List.mapM_cons, ht, hts]
          rfl
        · rw [List.map_cons, List.sum_cons, Nat.add_assoc]

theorem visitEntries_ok {f : Nat → α → Except String Nat} {rd : α → Option Tree} {P : Tree → Prop}
    {limit : Nat} (hf : ∀ n x m, f n x = .ok m →
      ∃ t, rd x = some t ∧ P t ∧ m = n + t.size ∧ m ≤ limit)
    {entries : List (Option CodeText × α)} {n m : Nat} (hn : n ≤ limit)
    (h : visitEntries f n entries = .ok m) :
    ∃ es, (entries.mapM fun (e : Option CodeText × α) => e.1.bind fun k =>
        (rd e.2).map (k, ·)) = some es ∧
      (∀ e ∈ es, P e.2) ∧ m = n + (es.map fun e => size e.2).sum ∧ m ≤ limit := by
  induction entries generalizing n with
  | nil =>
      obtain rfl := Except.ok.inj h
      exact ⟨[], rfl, by simp, by simp, hn⟩
  | cons e entries ih =>
      obtain ⟨k?, x⟩ := e
      cases k? with
      | none => exact absurd h (by simp [visitEntries])
      | some k =>
          unfold visitEntries at h
          split at h
          · exact absurd h (by simp)
          · rename_i n' hx
            obtain ⟨t, ht, hP, rfl, hle⟩ := hf n x n' hx
            obtain ⟨es, hes, hPs, rfl, hm⟩ := ih hle h
            refine ⟨(k, t) :: es, ?_, List.forall_mem_cons.mpr ⟨hP, hPs⟩, ?_, hm⟩
            · rw [List.mapM_cons, Option.bind_some, ht, hes]
              rfl
            · rw [List.map_cons, List.sum_cons, Nat.add_assoc]

theorem visitItems_of {f : Nat → α → Except String Nat} {g : α → Nat} {m : Nat}
    {items : List α} (hf : ∀ x ∈ items, ∀ n, n + g x ≤ m → f n x = .ok (n + g x)) {n : Nat}
    (hn : n + (items.map g).sum ≤ m) :
    visitItems f n items = .ok (n + (items.map g).sum) := by
  induction items generalizing n with
  | nil => rfl
  | cons x items ih =>
      rw [List.map_cons, List.sum_cons, ← Nat.add_assoc] at hn ⊢
      unfold visitItems
      rw [hf x List.mem_cons_self n (by omega)]
      exact ih (fun y hy => hf y (List.mem_cons_of_mem x hy)) hn

theorem visitEntries_of {f : Nat → α → Except String Nat} {g : α → Nat} {m : Nat}
    {entries : List (CodeText × α)}
    (hf : ∀ e ∈ entries, ∀ n, n + g e.2 ≤ m → f n e.2 = .ok (n + g e.2)) {n : Nat}
    (hn : n + (entries.map fun e => g e.2).sum ≤ m) :
    visitEntries f n (entries.map fun e => (some e.1, e.2)) =
      .ok (n + (entries.map fun e => g e.2).sum) := by
  induction entries generalizing n with
  | nil => rfl
  | cons e entries ih =>
      rw [List.map_cons, List.sum_cons, ← Nat.add_assoc] at hn
      rw [List.map_cons, List.map_cons, List.sum_cons, ← Nat.add_assoc]
      unfold visitEntries
      rw [hf e List.mem_cons_self n (by omega)]
      exact ih (fun y hy => hf y (List.mem_cons_of_mem e hy)) hn

/-- **A walker that ends well has seen a tree**, within its limits. -/
theorem read_of_visit {left : Nat} {seen : List Nat} {n m : Nat} {item : Shape α}
    (h : visit view w left seen n item = .ok m) :
    ∃ t, read view left item = some t ∧ (t.depth < left ∧ t.plain w.tuples = true) ∧
      m = n + t.size ∧ m ≤ w.maxItems := by
  induction left generalizing seen n m item with
  | zero => exact absurd h (by simp [visit])
  | succ left ih =>
      have hchild : ∀ seen' n' x m', visit view w left seen' n' (view x) = .ok m' →
          ∃ t, read view left (view x) = some t ∧
            (t.depth < left ∧ t.plain w.tuples = true) ∧ m' = n' + t.size ∧ m' ≤ w.maxItems :=
        fun seen' n' x m' hx => ih hx
      unfold visit at h
      split at h
      · exact absurd h (by simp)
      · rename_i hlimit
        rw [Nat.not_lt] at hlimit
        split at h
        · exact absurd h (by simp)
        · exact absurd h (by simp)
        · rename_i v hfinite hbytes
          obtain rfl := Except.ok.inj h
          refine ⟨.leaf v, rfl, ⟨?_, ?_⟩, ?_, hlimit⟩
          · rw [depth_leaf]
            exact Nat.succ_pos left
          · unfold plain
            rw [check_leaf]
            cases v with
            | nonFinite text => exact absurd rfl (hfinite text)
            | bytes data => exact absurd rfl (hbytes data)
            | _ => rfl
          · rw [size_leaf]
        · rename_i tuple id items
          split at h
          · exact absurd h (by simp)
          · rename_i htuple
            split at h
            · exact absurd h (by simp)
            · obtain ⟨ts, hts, hP, rfl, hm⟩ :=
                visitItems_ok (hchild (id.toList ++ seen)) hlimit h
              refine ⟨.sequence tuple ts, ?_, ⟨?_, ?_⟩, ?_, hm⟩
              · rw [read_sequence, hts]
                rfl
              · rw [depth_sequence, Nat.lt_succ_iff, above_le_iff]
                intro d hd
                obtain ⟨t, ht, rfl⟩ := List.mem_map.mp hd
                exact (hP t ht).1
              · refine check_sequence.mpr ⟨fun hyes => ?_, fun t ht => (hP t ht).2⟩
                cases hw : w.tuples with
                | true => rfl
                | false => exact absurd (by rw [hyes, hw]; rfl) htuple
              · rw [size_sequence, Nat.add_assoc]
        · rename_i id entries
          split at h
          · exact absurd h (by simp)
          · obtain ⟨es, hes, hP, rfl, hm⟩ :=
              visitEntries_ok (hchild (id.toList ++ seen)) hlimit h
            refine ⟨.dict es, ?_, ⟨?_, ?_⟩, ?_, hm⟩
            · rw [read_dict, hes]
              rfl
            · rw [depth_dict, Nat.lt_succ_iff, above_le_iff]
              intro d hd
              obtain ⟨e, he, rfl⟩ := List.mem_map.mp hd
              exact (hP e he).1
            · exact check_dict.mpr ⟨rfl, fun e he => (hP e he).2⟩
            · rw [size_dict, Nat.add_assoc]
        · exact absurd h (by simp)

theorem read_of_analysis {item : Shape α} (h : w.analysis view item = none) :
    ∃ t, read view (w.maxDepth + 1) item = some t ∧ t.depth ≤ w.maxDepth ∧
      t.plain w.tuples = true ∧ t.size ≤ w.maxItems := by
  unfold Walker.analysis at h
  split at h
  · rename_i m hvisit
    obtain ⟨t, ht, ⟨hdepth, hplain⟩, rfl, hsize⟩ := read_of_visit hvisit
    exact ⟨t, ht, Nat.lt_succ_iff.mp hdepth, hplain, by omega⟩
  · exact absurd h (by simp)

end Walk

/-! ## 2.  Looking at a decoded value -/

/-- A decoded value is read as itself. -/
theorem read_treeShape {left : Nat} {t u : Tree} (h : read treeShape left (treeShape t) = some u) :
    u = t := by
  induction t using of_parts generalizing left u with
  | leaf v =>
      cases left with
      | zero => exact absurd (read_zero _ ▸ h) (by simp)
      | succ left => exact (Option.some.inj h).symm
  | sequence tuple items ih =>
      cases left with
      | zero => exact absurd (read_zero _ ▸ h) (by simp)
      | succ left =>
          unfold treeShape at h
          rw [read_sequence] at h
          obtain ⟨ts, hts, rfl⟩ := Option.map_eq_some_iff.mp h
          congr 1
          exact mapM_eq_self hts fun t ht u hu => ih t ht hu
  | dict entries ih =>
      cases left with
      | zero => exact absurd (read_zero _ ▸ h) (by simp)
      | succ left =>
          unfold treeShape at h
          rw [read_dict] at h
          obtain ⟨es, hes, rfl⟩ := Option.map_eq_some_iff.mp h
          rw [List.mapM_map] at hes
          congr 1
          refine mapM_eq_self hes fun e he e' he' => ?_
          obtain ⟨u, hu, rfl⟩ := Option.map_eq_some_iff.mp he'
          rw [ih e he hu]

/-- Within its limits a walker lets a plain decoded value pass. -/
theorem visit_treeShape {w : Walker} {t : Tree} (hplain : t.plain false = true) {left n : Nat}
    (hdepth : t.depth < left) (hsize : n + t.size ≤ w.maxItems) :
    visit treeShape w left [] n (treeShape t) = .ok (n + t.size) := by
  induction t using of_parts generalizing left n with
  | leaf v =>
      rw [size_leaf] at hsize ⊢
      cases left with
      | zero => exact absurd hdepth (by simp)
      | succ left =>
          unfold treeShape visit
          rw [if_neg (Nat.not_lt.mpr hsize)]
          unfold plain at hplain
          rw [check_leaf] at hplain
          cases v with
          | nonFinite text => exact absurd hplain (by simp [isJson])
          | bytes data => exact absurd hplain (by simp [isJson])
          | _ => rfl
  | sequence tuple items ih =>
      rw [size_sequence] at hsize ⊢
      cases left with
      | zero => exact absurd hdepth (by simp)
      | succ left =>
          rw [depth_sequence, Nat.lt_succ_iff, above_le_iff] at hdepth
          obtain ⟨htuple, hitems⟩ := check_sequence.mp hplain
          have hlist : tuple = false := by
            cases tuple with
            | false => rfl
            | true => exact absurd (htuple rfl) (by simp)
          unfold treeShape visit
          rw [if_neg (by omega), hlist]
          show visitItems (fun n x => visit treeShape w left [] n (treeShape x)) (n + 1) items = _
          rw [visitItems_of (g := size) (m := w.maxItems), Nat.add_assoc]
          · intro x hx k hk
            exact ih x hx (hitems x hx) (hdepth _ (List.mem_map_of_mem hx)) hk
          · omega
  | dict entries ih =>
      rw [size_dict] at hsize ⊢
      cases left with
      | zero => exact absurd hdepth (by simp)
      | succ left =>
          rw [depth_dict, Nat.lt_succ_iff, above_le_iff] at hdepth
          obtain ⟨-, hentries⟩ := check_dict.mp hplain
          unfold treeShape visit
          rw [if_neg (by omega)]
          show visitEntries (fun n x => visit treeShape w left [] n (treeShape x)) (n + 1)
            (entries.map fun e => (some e.1, e.2)) = _
          rw [visitEntries_of (g := size) (m := w.maxItems), Nat.add_assoc]
          · intro e he k hk
            exact ih e he (hentries e he) (hdepth _ (List.mem_map_of_mem (f := fun e => depth e.2) he)) hk
          · omega

/-- The guard of `restore`. -/
theorem strictJsonValue_iff {t : Tree} (hplain : t.plain false = true) :
    strictJsonValue t = true ↔ t.depth ≤ 1000 ∧ t.size ≤ 10000000 := by
  unfold strictJsonValue
  rw [Option.isNone_iff_eq_none]
  constructor
  · intro h
    obtain ⟨u, hu, hdepth, -, hsize⟩ := read_of_analysis h
    rw [read_treeShape hu] at hdepth hsize
    exact ⟨hdepth, hsize⟩
  · rintro ⟨hdepth, hsize⟩
    have hvisit : visit treeShape (strictJsonWalker 1000 10000000) (1000 + 1) [] 0 (treeShape t) =
        .ok (0 + t.size) :=
      visit_treeShape hplain (Nat.lt_succ_iff.mpr hdepth) ((Nat.zero_add t.size).le.trans hsize)
    unfold Walker.analysis
    rw [show (strictJsonWalker 1000 10000000).maxDepth + 1 = 1000 + 1 from rfl, hvisit]

/-! ## 3.  The document of a tuple -/

section Lists

variable {β γ ε : Type} {f : β → Option γ}

theorem mem_of_mapM {xs : List β} {ys : List γ} (h : xs.mapM f = some ys) :
    (∀ x ∈ xs, ∃ y ∈ ys, f x = some y) ∧ ∀ y ∈ ys, ∃ x ∈ xs, f x = some y := by
  induction xs generalizing ys with
  | nil =>
      obtain rfl : [] = ys := Option.some.inj h
      simp
  | cons x xs ih =>
      rw [List.mapM_cons] at h
      obtain ⟨y, hy, h⟩ := Option.bind_eq_some_iff.mp h
      obtain ⟨zs, hzs, h⟩ := Option.bind_eq_some_iff.mp h
      obtain rfl : y :: zs = ys := Option.some.inj h
      obtain ⟨hto, hfrom⟩ := ih hzs
      constructor
      · refine List.forall_mem_cons.mpr ⟨⟨y, List.mem_cons_self, hy⟩, fun x' hx' => ?_⟩
        obtain ⟨y', hy', hfy⟩ := hto x' hx'
        exact ⟨y', List.mem_cons_of_mem y hy', hfy⟩
      · refine List.forall_mem_cons.mpr ⟨⟨x, List.mem_cons_self, hy⟩, fun y' hy' => ?_⟩
        obtain ⟨x', hx', hfx⟩ := hfrom y' hy'
        exact ⟨x', List.mem_cons_of_mem x hx', hfx⟩

/-- What is undone item by item is undone. -/
theorem mapM_mapM {δ : Type} {g : γ → Except ε δ} {k : β → δ} {xs : List β} {ys : List γ}
    (h : xs.mapM f = some ys) (hg : ∀ x ∈ xs, ∀ y, f x = some y → g y = .ok (k x)) :
    ys.mapM g = .ok (xs.map k) := by
  induction xs generalizing ys with
  | nil =>
      obtain rfl : [] = ys := Option.some.inj h
      rfl
  | cons x xs ih =>
      rw [List.mapM_cons] at h
      obtain ⟨y, hy, h⟩ := Option.bind_eq_some_iff.mp h
      obtain ⟨zs, hzs, h⟩ := Option.bind_eq_some_iff.mp h
      obtain rfl : y :: zs = ys := Option.some.inj h
      rw [List.mapM_cons, hg x List.mem_cons_self y hy,
        ih hzs fun z hz => hg z (List.mem_cons_of_mem x hz)]
      rfl

end Lists

theorem key_injective {s t : String} (h : key s = key t) : s = t := by
  have hchar : Function.Injective CodePoint.ofChar := by
    intro c d hcd
    have hnat : c.toNat = d.toNat := congrArg (fun p : CodePoint => p.val) hcd
    exact Char.ext (UInt32.toNat_inj.mp hnat)
  exact String.toList_inj.mp (List.map_injective_iff.mpr hchar h)

theorem sort_map_entries {β : Type} (g : Tree → β) (entries : List (CodeText × Tree)) :
    Dict.sort (entries.map fun e => (e.1, g e.2)) =
      (Dict.sort entries).map fun e => (e.1, g e.2) :=
  Dict.sort_map (fun _ => g) entries

theorem encode_leaf {v : Scalar} {doc : Tree} (h : portableTreeEncode (.leaf v) = some doc) :
    doc = .dict [(key "kind", text "value"), (key "value", .leaf v)] := by
  unfold portableTreeEncode at h
  rw [fold] at h
  split at h
  · exact absurd h (by simp)
  · exact (Option.some.inj h).symm

theorem encode_sequence {tuple : Bool} {items : List Tree} {doc : Tree}
    (h : portableTreeEncode (.sequence tuple items) = some doc) :
    ∃ docs, items.mapM portableTreeEncode = some docs ∧
      doc = itemsNode (if tuple then "tuple" else "list") docs := by
  unfold portableTreeEncode at h ⊢
  rw [fold_sequence, List.mapM_map] at h
  obtain ⟨docs, hdocs, rfl⟩ := Option.map_eq_some_iff.mp h
  exact ⟨docs, hdocs, rfl⟩

theorem encode_dict {entries : List (CodeText × Tree)} {doc : Tree}
    (h : portableTreeEncode (.dict entries) = some doc) :
    ∃ docs, (Dict.sort entries).mapM (fun e => entryNode (e.1, portableTreeEncode e.2)) =
        some docs ∧ doc = itemsNode "dict" docs := by
  unfold portableTreeEncode at h ⊢
  rw [fold_dict, sort_map_entries, List.mapM_map] at h
  obtain ⟨docs, hdocs, rfl⟩ := Option.map_eq_some_iff.mp h
  exact ⟨docs, hdocs, rfl⟩

theorem entryNode_eq_some {k : CodeText} {t node : Tree}
    (h : entryNode (k, portableTreeEncode t) = some node) :
    ∃ doc, portableTreeEncode t = some doc ∧ node = .sequence false [.leaf (.str k), doc] := by
  obtain ⟨doc, hdoc, rfl⟩ := Option.map_eq_some_iff.mp h
  exact ⟨doc, hdoc, rfl⟩

section Decode

variable (L : JsonLibrary)

theorem get?_sort {d : List (CodeText × Tree)} (h : Dict.WF d) (k : CodeText) :
    Dict.get? (Dict.sort d) k = Dict.get? d k :=
  h.sort.get?_perm (Dict.sort_perm d) k

theorem wf_pair {a b : String} (h : a ≠ b) (t u : Tree) : Dict.WF [(key a, t), (key b, u)] := by
  have hkey : key a ≠ key b := fun heq => h (key_injective heq)
  show [key a, key b].Nodup
  rw [List.nodup_cons, List.mem_singleton]
  exact ⟨hkey, List.nodup_singleton _⟩

theorem get?_pair {a b : String} (h : a ≠ b) (t u : Tree) :
    Dict.get? (Dict.sort [(key a, t), (key b, u)]) (key a) = some t ∧
      Dict.get? (Dict.sort [(key a, t), (key b, u)]) (key b) = some u := by
  have hkey : key a ≠ key b := fun heq => h (key_injective heq)
  rw [get?_sort (wf_pair h t u), get?_sort (wf_pair h t u), Dict.get?_cons, Dict.get?_cons,
    Dict.get?_cons, if_pos rfl, if_neg hkey]
  exact ⟨rfl, if_pos rfl⟩

/-- What the decoder does with a node of items. -/
theorem decode_itemsNode (left : Nat) (kind : String) (items : List Tree) (hkind : kind ≠ "value") :
    portableTreeDecode L (left + 1) (itemsNode kind items).canon =
      if kind = "tuple" then
        ((items.map canon).mapM (portableTreeDecode L left)).map (.sequence true)
      else if kind = "list" then
        ((items.map canon).mapM (portableTreeDecode L left)).map (.sequence false)
      else if kind = "dict" then
        ((items.map canon).mapM (decodeEntry (portableTreeDecode L left))).map
          fun entries => .dict (Dict.merge [] entries)
      else .error "portable tree kind is unsupported" := by
  have hcanon : (itemsNode kind items).canon = .dict (Dict.sort [(key "kind", text kind),
      (key "items", .sequence false (items.map canon))]) := by
    unfold itemsNode text
    rw [canon_dict, List.map_cons, List.map_singleton, canon_leaf, canon_sequence]
  obtain ⟨hk, hi⟩ := get?_pair (a := "kind") (b := "items") (by decide) (text kind)
    (.sequence false (items.map canon))
  have hkindOf : kindOf L (Dict.sort [(key "kind", text kind),
      (key "items", .sequence false (items.map canon))]) = key kind := by
    unfold kindOf
    rw [hk]
    rfl
  have hne : ∀ s, (key kind = key s) = (kind = s) := fun s =>
    propext ⟨key_injective, congrArg key⟩
  rw [hcanon]
  unfold portableTreeDecode
  rw [hkindOf, hi]
  simp only [hne, if_neg hkind]

/-- **The decoder reads what the encoder writes.** -/
theorem portableTreeDecode_encode {t doc : Tree} (hplain : t.plain true = true)
    (hdistinct : t.distinct = true) (hdoc : portableTreeEncode t = some doc) {left : Nat}
    (hdepth : t.depth < left) : portableTreeDecode L left doc.canon = .ok t.canon := by
  induction t using of_parts generalizing doc left with
  | leaf v =>
      cases left with
      | zero => exact absurd hdepth (by simp)
      | succ left =>
          rw [encode_leaf hdoc, canon_dict, List.map_cons, List.map_singleton, canon_leaf]
          obtain ⟨hk, hv⟩ := get?_pair (a := "kind") (b := "value") (by decide) (text "value").canon
            (.leaf v)
          have hkindOf : kindOf L (Dict.sort [(key "kind", (text "value").canon),
              (key "value", .leaf v)]) = key "value" := by
            unfold kindOf
            rw [hk]
            unfold text
            rw [canon_leaf]
            rfl
          unfold portableTreeDecode
          rw [if_pos hkindOf, hv]
          unfold plain at hplain
          rw [check_leaf] at hplain
          cases v with
          | nonFinite text => exact absurd hplain (by simp [isJson])
          | bytes data => exact absurd hplain (by simp [isJson])
          | _ => rfl
  | sequence tuple items ih =>
      cases left with
      | zero => exact absurd hdepth (by simp)
      | succ left =>
          rw [depth_sequence, Nat.lt_succ_iff, above_le_iff] at hdepth
          obtain ⟨-, hitems⟩ := check_sequence.mp hplain
          obtain ⟨-, hkeys⟩ := check_sequence.mp hdistinct
          obtain ⟨docs, hdocs, rfl⟩ := encode_sequence hdoc
          have hdecode : (docs.map canon).mapM (portableTreeDecode L left) =
              .ok (items.map canon) := by
            rw [List.mapM_map]
            exact mapM_mapM hdocs fun t ht doc hdoc =>
              ih t ht (hitems t ht) (hkeys t ht) hdoc (hdepth _ (List.mem_map_of_mem ht))
          rw [canon_sequence]
          cases tuple with
          | true =>
              rw [decode_itemsNode L left _ docs (by decide), if_pos (by rfl), hdecode]
              rfl
          | false =>
              rw [decode_itemsNode L left _ docs (by decide), if_neg (by decide), if_pos (by rfl),
                hdecode]
              rfl
  | dict entries ih =>
      cases left with
      | zero => exact absurd hdepth (by simp)
      | succ left =>
          rw [depth_dict, Nat.lt_succ_iff, above_le_iff] at hdepth
          obtain ⟨-, hentries⟩ := check_dict.mp hplain
          obtain ⟨hnodup, hkeys⟩ := check_dict.mp hdistinct
          obtain ⟨docs, hdocs, rfl⟩ := encode_dict hdoc
          have hwf : Dict.WF (Dict.sort (entries.map fun e => (e.1, e.2.canon))) := by
            apply Dict.WF.sort
            unfold Dict.WF
            rw [keys_map_entries]
            exact of_decide_eq_true hnodup
          have hdecode : (docs.map canon).mapM (decodeEntry (portableTreeDecode L left)) =
              .ok ((Dict.sort entries).map fun e => (e.1, e.2.canon)) := by
            rw [List.mapM_map]
            refine mapM_mapM hdocs fun e he node hnode => ?_
            have hmem := (Dict.sort_perm entries).mem_iff.mp he
            obtain ⟨doc, hdoc, rfl⟩ := entryNode_eq_some hnode
            have hvalue := ih e hmem (hentries e hmem) (hkeys e hmem) hdoc
              (hdepth _ (List.mem_map_of_mem (f := fun e => depth e.2) hmem))
            rw [Function.comp_apply, canon_sequence, List.map_cons, List.map_singleton, canon_leaf]
            show (portableTreeDecode L left doc.canon).map (e.1, ·) = _
            rw [hvalue]
            rfl
          rw [canon_dict, decode_itemsNode L left _ docs (by decide), if_neg (by decide),
            if_neg (by decide), if_pos rfl, hdecode, ← sort_map_entries]
          show Except.ok (Tree.dict (Dict.merge [] _)) = _
          rw [Dict.merge_of_disjoint hwf (by simp), List.nil_append]

end Decode

/-- The document of a plain value passes every check that JSON scalars pass. -/
theorem check_encode {leaf : Scalar → Bool} {keys : List CodeText → Bool}
    (hleaf : ∀ v, isJson v = true → leaf v = true) (hitems : keys [key "kind", key "items"] = true)
    (hvalue : keys [key "kind", key "value"] = true) {t doc : Tree} (hplain : t.plain true = true)
    (hdoc : portableTreeEncode t = some doc) : check leaf false keys doc = true := by
  have htext : ∀ s, check leaf false keys (text s) = true := fun s => by
    unfold text
    rw [check_leaf]
    exact hleaf _ rfl
  have hnode : ∀ kind docs, (∀ d ∈ docs, check leaf false keys d = true) →
      check leaf false keys (itemsNode kind docs) = true := by
    intro kind docs hdocs
    refine check_dict.mpr ⟨hitems, List.forall_mem_cons.mpr ⟨htext kind, ?_⟩⟩
    rw [List.forall_mem_singleton]
    exact check_sequence.mpr ⟨fun hno => absurd hno (by simp), hdocs⟩
  induction t using of_parts generalizing doc with
  | leaf v =>
      rw [encode_leaf hdoc]
      refine check_dict.mpr ⟨hvalue, List.forall_mem_cons.mpr ⟨htext "value", ?_⟩⟩
      rw [List.forall_mem_singleton, check_leaf]
      unfold plain at hplain
      rw [check_leaf] at hplain
      exact hleaf v hplain
  | sequence tuple items ih =>
      obtain ⟨docs, hdocs, rfl⟩ := encode_sequence hdoc
      refine hnode _ docs fun d hd => ?_
      obtain ⟨t, ht, hencode⟩ := (mem_of_mapM hdocs).2 d hd
      exact ih t ht ((check_sequence.mp hplain).2 t ht) hencode
  | dict entries ih =>
      obtain ⟨docs, hdocs, rfl⟩ := encode_dict hdoc
      refine hnode _ docs fun d hd => ?_
      obtain ⟨e, he, hentry⟩ := (mem_of_mapM hdocs).2 d hd
      have hmem := (Dict.sort_perm entries).mem_iff.mp he
      obtain ⟨doc, hencode, rfl⟩ := entryNode_eq_some hentry
      refine check_sequence.mpr ⟨fun hno => absurd hno (by simp), ?_⟩
      rw [List.forall_mem_cons, List.forall_mem_singleton, check_leaf]
      exact ⟨hleaf _ rfl, ih e hmem ((check_dict.mp hplain).2 e hmem) hencode⟩

/-- The texts of a value are texts of its document. -/
theorem encodable_of_encode {t doc : Tree} (hdoc : portableTreeEncode t = some doc)
    (h : doc.encodable = true) : t.encodable = true := by
  have hitems : ∀ kind docs, (itemsNode kind docs).encodable = true →
      ∀ d ∈ docs, d.encodable = true := by
    intro kind docs hnode
    have hsecond := (check_dict.mp hnode).2 (key "items", .sequence false docs)
      (List.mem_cons_of_mem _ List.mem_cons_self)
    exact (check_sequence.mp hsecond).2
  induction t using of_parts generalizing doc with
  | leaf v =>
      rw [encode_leaf hdoc] at h
      exact (check_dict.mp h).2 (key "value", .leaf v) (List.mem_cons_of_mem _ List.mem_cons_self)
  | sequence tuple items ih =>
      obtain ⟨docs, hdocs, rfl⟩ := encode_sequence hdoc
      refine check_sequence.mpr ⟨fun _ => rfl, fun t ht => ?_⟩
      obtain ⟨d, hd, hencode⟩ := (mem_of_mapM hdocs).1 t ht
      exact ih t ht hencode (hitems _ docs h d hd)
  | dict entries ih =>
      obtain ⟨docs, hdocs, rfl⟩ := encode_dict hdoc
      have hentry : ∀ e ∈ entries,
          (CodeText.text? e.1).isSome = true ∧ e.2.encodable = true := by
        intro e he
        obtain ⟨d, hd, hnode⟩ := (mem_of_mapM hdocs).1 e ((Dict.sort_perm entries).mem_iff.mpr he)
        obtain ⟨doc, hencode, rfl⟩ := entryNode_eq_some hnode
        have hparts := (check_sequence.mp (hitems _ docs h _ hd)).2
        rw [List.forall_mem_cons, List.forall_mem_singleton, check_leaf] at hparts
        exact ⟨hparts.1, ih e he hencode hparts.2⟩
      refine check_dict.mpr ⟨List.all_eq_true.mpr fun k hk => ?_, fun e he => (hentry e he).2⟩
      obtain ⟨e, he, rfl⟩ := List.mem_map.mp hk
      exact (hentry e he).1

/-- A document is as deep as its value. -/
theorem depth_encode {t doc : Tree} (hdoc : portableTreeEncode t = some doc) :
    t.depth ≤ doc.depth := by
  have hnode : ∀ kind (docs : List Tree), ∀ d ∈ docs, d.depth + 1 ≤ (itemsNode kind docs).depth := by
    intro kind docs d hd
    have hseq : d.depth + 1 ≤ (Tree.sequence false docs).depth := by
      rw [depth_sequence]
      exact above_le_iff.mp (le_refl _) _ (List.mem_map_of_mem hd)
    have hdict : (Tree.sequence false docs).depth + 1 ≤ (itemsNode kind docs).depth := by
      unfold itemsNode
      rw [depth_dict]
      exact above_le_iff.mp (le_refl _) _ (List.mem_map_of_mem
        (f := fun e : CodeText × Tree => depth e.2) (List.mem_cons_of_mem _ List.mem_cons_self))
    omega
  induction t using of_parts generalizing doc with
  | leaf v =>
      rw [depth_leaf]
      exact Nat.zero_le _
  | sequence tuple items ih =>
      obtain ⟨docs, hdocs, rfl⟩ := encode_sequence hdoc
      rw [depth_sequence, above_le_iff]
      intro n hn
      obtain ⟨t, ht, rfl⟩ := List.mem_map.mp hn
      obtain ⟨d, hd, hencode⟩ := (mem_of_mapM hdocs).1 t ht
      exact (Nat.succ_le_succ (ih t ht hencode)).trans (hnode _ docs d hd)
  | dict entries ih =>
      obtain ⟨docs, hdocs, rfl⟩ := encode_dict hdoc
      rw [depth_dict, above_le_iff]
      intro n hn
      obtain ⟨e, he, rfl⟩ := List.mem_map.mp hn
      obtain ⟨d, hd, hentry⟩ := (mem_of_mapM hdocs).1 e ((Dict.sort_perm entries).mem_iff.mpr he)
      obtain ⟨doc, hencode, rfl⟩ := entryNode_eq_some hentry
      have hpair : doc.depth + 1 ≤ (Tree.sequence false [.leaf (.str e.1), doc]).depth := by
        rw [depth_sequence]
        exact above_le_iff.mp (le_refl _) _ (List.mem_map_of_mem
          (List.mem_cons_of_mem _ List.mem_cons_self))
      have hle := ih e he hencode
      have hup := hnode "dict" docs _ hd
      omega

/-! ## 4.  Capturing -/

/-- The keys of a dictionary that was read are the texts among its keys. -/
theorem keys_of_mapM {α : Type} {f : α → Option Tree} {entries : List (Option CodeText × α)}
    {es : List (CodeText × Tree)}
    (h : (entries.mapM fun (e : Option CodeText × α) => e.1.bind fun k =>
      (f e.2).map (k, ·)) = some es) : Dict.keys es = entries.filterMap Prod.fst := by
  induction entries generalizing es with
  | nil =>
      obtain rfl : [] = es := Option.some.inj h
      rfl
  | cons e entries ih =>
      obtain ⟨k?, x⟩ := e
      rw [List.mapM_cons] at h
      obtain ⟨e', he', h⟩ := Option.bind_eq_some_iff.mp h
      obtain ⟨es', hes', h⟩ := Option.bind_eq_some_iff.mp h
      obtain rfl : e' :: es' = es := Option.some.inj h
      obtain ⟨k, rfl, hk⟩ := Option.bind_eq_some_iff.mp he'
      obtain ⟨t, -, rfl⟩ := Option.map_eq_some_iff.mp hk
      rw [Dict.keys_cons, ih hes']
      rfl

theorem shape_sequence {heap : Heap} {id : Nat} {tuple : Bool} {items : List Obj}
    (h : heap id = .sequence tuple items) :
    heap.shape (.ref id) = .sequence tuple (some id) items := by
  unfold Heap.shape
  dsimp only
  rw [h]

theorem shape_dict {heap : Heap} {id : Nat} {entries : List (Obj × Obj)}
    {distinct : (entries.filterMap fun e => e.1.text?).Nodup}
    (h : heap id = .dict entries distinct) :
    heap.shape (.ref id) = .dict (some id) (entries.map fun e => (e.1.text?, e.2)) := by
  unfold Heap.shape
  dsimp only
  rw [h]

/-- A value of the heap is read as a tree with distinct keys. -/
theorem distinct_read {heap : Heap} {left : Nat} {value : Obj} {t : Tree}
    (h : read heap.shape left (heap.shape value) = some t) : t.distinct = true := by
  induction left generalizing value t with
  | zero => exact absurd (read_zero _ ▸ h) (by simp)
  | succ left ih =>
      cases value with
      | scalar v =>
          obtain rfl := Option.some.inj h
          unfold distinct
          rw [check_leaf]
      | ref id =>
          cases hobject : heap id with
          | sequence tuple items =>
            rw [shape_sequence hobject, read_sequence] at h
            obtain ⟨ts, hts, rfl⟩ := Option.map_eq_some_iff.mp h
            refine check_sequence.mpr ⟨fun _ => rfl, fun t ht => ?_⟩
            obtain ⟨x, -, hx⟩ := (mem_of_mapM hts).2 t ht
            exact ih hx
          | dict entries hnodup =>
            rw [shape_dict hobject, read_dict] at h
            obtain ⟨es, hes, rfl⟩ := Option.map_eq_some_iff.mp h
            refine check_dict.mpr ⟨decide_eq_true ?_, fun e he => ?_⟩
            · rw [keys_of_mapM (f := fun x => read heap.shape left (heap.shape x)) hes,
                List.filterMap_map]
              exact hnodup
            · obtain ⟨x, -, hx⟩ := (mem_of_mapM hes).2 e he
              obtain ⟨k, -, hk⟩ := Option.bind_eq_some_iff.mp hx
              obtain ⟨u, hu, rfl⟩ := Option.map_eq_some_iff.mp hk
              exact ih hu
          | _ =>
            rw [show heap.shape (.ref id) = .other from by
              unfold Heap.shape
              dsimp only
              rw [hobject], read_other] at h
            exact absurd h (by simp)

/-- The retained bytes of a text. -/
theorem retain_utf8 {byteLimit total : Nat} {retained raw : ByteArray} {pieces : List CodeText}
    (h : retain byteLimit total retained (utf8Chunks (some pieces)) = .ok raw) :
    ∃ u, CodeText.text? pieces.flatten = some u ∧ raw = retained ++ u.toByteArray := by
  have hmap : utf8Chunks (some pieces) = pieces.map CodeText.encode := rfl
  rw [hmap] at h
  clear hmap
  induction pieces generalizing total retained with
  | nil =>
      obtain rfl : retained = raw := Except.ok.inj h
      exact ⟨"", CodeText.text?_nil, by simp⟩
  | cons piece pieces ih =>
      rw [List.map_cons] at h
      cases hpiece : CodeText.text? piece with
      | none =>
          have hencode : CodeText.encode piece = none := by
            unfold CodeText.encode
            rw [hpiece]
            rfl
          rw [hencode] at h
          exact absurd h (by simp [retain])
      | some v =>
          have hencode : CodeText.encode piece = some v.toByteArray := by
            unfold CodeText.encode
            rw [hpiece]
            rfl
          rw [hencode] at h
          unfold retain at h
          split at h
          · exact absurd h (by simp)
          · obtain ⟨u, hu, rfl⟩ := ih h
            refine ⟨v ++ u, CodeText.text?_append_of hpiece hu, ?_⟩
            rw [String.toByteArray_append, ByteArray.append_assoc]

/-- The chunks of a value end, or one of them raises. -/
theorem exists_before (chunks : List (Option ByteArray)) :
    (∃ before : List ByteArray, chunks = before.map some) ∨
      ∃ (before : List ByteArray) (after : List (Option ByteArray)),
        chunks = before.map some ++ none :: after := by
  induction chunks with
  | nil => exact .inl ⟨[], rfl⟩
  | cons chunk chunks ih =>
      cases chunk with
      | none => exact .inr ⟨[], chunks, rfl⟩
      | some chunk =>
          rcases ih with ⟨before, rfl⟩ | ⟨before, after, rfl⟩
          · exact .inl ⟨chunk :: before, rfl⟩
          · exact .inr ⟨chunk :: before, after, rfl⟩

/-- Chunks that fit are retained. -/
theorem retain_all {byteLimit total : Nat} {retained : ByteArray} {before : List ByteArray}
    (h : total + (before.map ByteArray.size).sum ≤ byteLimit) :
    ∃ raw, retain byteLimit total retained (before.map some) = .ok raw := by
  induction before generalizing total retained with
  | nil => exact ⟨retained, rfl⟩
  | cons chunk before ih =>
      rw [List.map_cons, List.sum_cons] at h
      rw [List.map_cons, retain, if_neg (by omega)]
      exact ih (by omega)

/-- A chunk raises; those before it are within the limit. -/
theorem retain_raises {byteLimit total : Nat} {retained : ByteArray} {before : List ByteArray}
    {after : List (Option ByteArray)} (h : total + (before.map ByteArray.size).sum ≤ byteLimit) :
    ∃ n, retain byteLimit total retained (before.map some ++ none :: after) =
      .error ("serialization_error", n) := by
  induction before generalizing total retained with
  | nil => exact ⟨total, rfl⟩
  | cons chunk before ih =>
      rw [List.map_cons, List.sum_cons] at h
      rw [List.map_cons, List.cons_append, retain, if_neg (by omega)]
      exact ih (by omega)

/-- The chunks are beyond the limit before anything raises. -/
theorem retain_tooLarge {byteLimit total : Nat} {retained : ByteArray} {before : List ByteArray}
    {after : List (Option ByteArray)} (hfits : total ≤ byteLimit)
    (h : byteLimit < total + (before.map ByteArray.size).sum) :
    ∃ n, byteLimit < n ∧ retain byteLimit total retained (before.map some ++ after) =
      .error ("capsule_value_too_large", n) := by
  induction before generalizing total retained with
  | nil =>
      rw [List.map_nil, List.sum_nil] at h
      omega
  | cons chunk before ih =>
      rw [List.map_cons, List.sum_cons, ← Nat.add_assoc] at h
      rw [List.map_cons, List.cons_append, retain]
      by_cases hchunk : byteLimit < total + chunk.size
      · rw [if_pos hchunk]
        exact ⟨_, hchunk, rfl⟩
      · rw [if_neg hchunk]
        exact ih (not_lt.mp hchunk) h

theorem serializerFor_ok {available : String → Bool} {heap : Heap} {limits : CapsuleLimits}
    {value : Obj} {serializer : Serializer}
    (h : serializerFor available heap limits value = .ok serializer) :
    (∃ s, value = .scalar (.str s) ∧ serializer = .textUtf8) ∨
      (∃ data, value = .scalar (.bytes data) ∧ serializer = .bytesV1) ∨
      (∃ id, serializer = .foreign id) ∨
      ((strictJsonWalker limits.maxDepth limits.maxContainerItems).analysis heap.shape
          (heap.shape value) = none ∧ serializer = .jsonStrict) ∨
      ((portableTreeWalker limits.maxDepth limits.maxContainerItems).analysis heap.shape
          (heap.shape value) = none ∧ serializer = .tupleTree ∧
        ∃ id items, value = .ref id ∧ heap id = .sequence true items) := by
  have hadmitted : ∀ {s excluded}, admitted s excluded = .ok serializer →
      excluded = none ∧ serializer = s := by
    intro s excluded hs
    cases excluded with
    | none => exact ⟨rfl, (Except.ok.inj hs).symm⟩
    | some reason => exact absurd hs (by simp [admitted])
  have hstrict : admitted .jsonStrict ((strictJsonWalker limits.maxDepth
      limits.maxContainerItems).analysis heap.shape (heap.shape value)) = .ok serializer →
      ((strictJsonWalker limits.maxDepth limits.maxContainerItems).analysis heap.shape
          (heap.shape value) = none ∧ serializer = .jsonStrict) := hadmitted
  have hforeign : ∀ {id}, Except.ok (Serializer.foreign id) = Except.ok serializer →
      ∃ id, serializer = .foreign id := fun {id} hs =>
    ⟨id, (Except.ok.inj (ε := String) hs).symm⟩
  unfold serializerFor at h
  dsimp only at h
  split at h
  · exact .inl ⟨_, rfl, (Except.ok.inj h).symm⟩
  · exact .inr (.inl ⟨_, rfl, (Except.ok.inj h).symm⟩)
  · exact .inr (.inr (.inr (.inl (hstrict h))))
  · rename_i id
    split at h
    · rename_i items hobject
      obtain ⟨hnone, hs⟩ := hadmitted h
      rw [← shape_sequence hobject] at hnone
      exact .inr (.inr (.inr (.inr ⟨hnone, hs, id, items, rfl, hobject⟩)))
    · split at h
      · exact absurd h (by simp)
      · split at h
        · exact absurd h (by simp)
        · exact .inr (.inr (.inl ⟨_, (hadmitted h).2⟩))
    · split at h
      · split at h
        · exact absurd h (by simp)
        · exact .inr (.inr (.inl (hforeign h)))
      · exact .inr (.inr (.inr (.inl (hstrict h))))
    · split at h
      · exact .inr (.inr (.inl (hforeign h)))
      · exact .inr (.inr (.inr (.inl (hstrict h))))
    · split at h
      · exact .inr (.inr (.inl (hforeign h)))
      · exact .inr (.inr (.inr (.inl (hstrict h))))
    · split at h
      · exact .inr (.inr (.inl (hforeign h)))
      · exact .inr (.inr (.inr (.inl (hstrict h))))
    · exact .inr (.inr (.inr (.inl (hstrict h))))
    · exact .inr (.inr (.inr (.inl (hstrict h))))

/-! ## 5.  Every reason is given -/

section Reasons

variable {α : Type} {view : α → Shape α} {w : Walker}

theorem visit_error (hw : w.unsupported ≠ "") {left : Nat} {seen : List Nat} {n : Nat}
    {item : Shape α} {reason : String} (h : visit view w left seen n item = .error reason) :
    reason ≠ "" := by
  induction left generalizing seen n item reason with
  | zero =>
      rw [← Except.error.inj h]
      decide
  | succ left ih =>
      have hitems : ∀ seen' (items : List α) n', visitItems
          (fun n x => visit view w left seen' n (view x)) n' items = .error reason →
          reason ≠ "" := by
        intro seen' items
        induction items with
        | nil =>
            intro n' hn
            exact absurd hn (by simp [visitItems])
        | cons x items ihitems =>
            intro n' hn
            unfold visitItems at hn
            split at hn
            · rename_i hx
              rw [← Except.error.inj hn]
              exact ih hx
            · exact ihitems _ hn
      have hentries : ∀ seen' (entries : List (Option CodeText × α)) n', visitEntries
          (fun n x => visit view w left seen' n (view x)) n' entries = .error reason →
          reason ≠ "" := by
        intro seen' entries
        induction entries with
        | nil =>
            intro n' hn
            exact absurd hn (by simp [visitEntries])
        | cons e entries ihentries =>
            obtain ⟨k?, x⟩ := e
            intro n' hn
            cases k? with
            | none =>
                rw [← Except.error.inj hn]
                decide
            | some k =>
                unfold visitEntries at hn
                split at hn
                · rename_i hx
                  rw [← Except.error.inj hn]
                  exact ih hx
                · exact ihentries _ hn
      unfold visit at h
      split at h
      · rw [← Except.error.inj h]
        decide
      · split at h
        · rw [← Except.error.inj h]
          decide
        · rw [← Except.error.inj h]
          exact hw
        · exact absurd h (by simp)
        · split at h
          · rw [← Except.error.inj h]
            exact hw
          · split at h
            · rw [← Except.error.inj h]
              decide
            · exact hitems _ _ _ h
        · split at h
          · rw [← Except.error.inj h]
            decide
          · exact hentries _ _ _ h
        · rw [← Except.error.inj h]
          exact hw

end Reasons

theorem ForeignType.excludedReason_ne (type : ForeignType) : type.excludedReason ≠ "" := by
  have hite : ∀ {c : Prop} [Decidable c] {a b : String}, a ≠ "" → b ≠ "" →
      (if c then a else b) ≠ "" := by
    intro c _ a b ha hb
    split
    · exact ha
    · exact hb
  unfold ForeignType.excludedReason
  exact hite (by decide) <| hite (by decide) <| hite (by decide) <| hite (by decide) <|
    hite (by decide) <| hite (by decide) <| hite (by decide) <| hite (by decide) <|
    hite (by decide) <| hite (by decide) (by decide)

theorem Heap.excludedReason_ne (heap : Heap) (value : Obj) : heap.excludedReason value ≠ "" := by
  unfold Heap.excludedReason
  split
  · decide
  · split
    · exact ForeignType.excludedReason_ne _
    · decide

theorem unsupported_strictJsonWalker (maxDepth maxItems : Nat) :
    (strictJsonWalker maxDepth maxItems).unsupported ≠ "" := by
  show "unsupported_type" ≠ ""
  decide

theorem unsupported_portableTreeWalker (maxDepth maxItems : Nat) :
    (portableTreeWalker maxDepth maxItems).unsupported ≠ "" := by
  show "unsupported_nested_type" ≠ ""
  decide

theorem serializerFor_error {available : String → Bool} {heap : Heap} {limits : CapsuleLimits}
    {value : Obj} {reason : String}
    (h : serializerFor available heap limits value = .error reason) : reason ≠ "" := by
  have hadmitted : ∀ {s w i}, w.unsupported ≠ "" →
      admitted s (Walker.analysis heap.shape w i) = .error reason → reason ≠ "" := by
    intro s w i hw hs
    unfold Walker.analysis at hs
    split at hs
    · exact absurd hs (by simp [admitted])
    · rename_i hvisit
      rw [← Except.error.inj hs]
      exact visit_error hw hvisit
  have hstrict := fun {item : Shape Obj} {s : Serializer} =>
    hadmitted (s := s) (w := strictJsonWalker limits.maxDepth limits.maxContainerItems)
      (i := item) (unsupported_strictJsonWalker _ _)
  unfold serializerFor at h
  dsimp only at h
  split at h
  · exact absurd h (by simp)
  · exact absurd h (by simp)
  · exact hstrict h
  · split at h
    · exact hadmitted (unsupported_portableTreeWalker _ _) h
    · split at h
      · rw [← Except.error.inj h]
        decide
      · split at h
        · rw [← Except.error.inj h]
          decide
        · exact hadmitted (unsupported_portableTreeWalker _ _) h
    · split at h
      · split at h
        · rw [← Except.error.inj h]
          decide
        · exact absurd h (by simp)
      · exact hstrict h
    · split at h
      · exact absurd h (by simp)
      · exact hstrict h
    · split at h
      · exact absurd h (by simp)
      · exact hstrict h
    · split at h
      · exact absurd h (by simp)
      · exact hstrict h
    · exact hstrict h
    · exact hstrict h

/-! ## 6.  The round trip -/

/-- Finite plain trees survive JSON, but for the order of the keys; and a text that
cannot be written in UTF-8 is written as it is. -/
structure JsonLibrary.Lossless (L : JsonLibrary) : Prop where
  reads : ∀ t : Tree, t.plain false = true → t.distinct = true → t.encodable = true →
    L.loads (L.iterencode t).flatten = some t.canon
  verbatim : ∀ t : Tree, t.plain false = true → t.distinct = true →
    (CodeText.text? (L.iterencode t).flatten).isSome → t.encodable = true

/-- The value is this tree. -/
def Denotes (heap : Heap) (value : Obj) (t : Tree) : Prop :=
  ∃ left, read heap.shape left (heap.shape value) = some t

/-- The tree can be restored exactly: its texts can be written, and it is a text, bytes,
JSON or a tuple of plain values within the limits. -/
def Restorable (limits : CapsuleLimits) (t : Tree) : Prop :=
  t.encodable = true ∧
    ((∃ s, t = .leaf (.str s)) ∨ (∃ data, t = .leaf (.bytes data)) ∨
      (t.plain false = true ∨ t.plain true = true ∧ ∃ items, t = .sequence true items) ∧
        t.depth ≤ limits.maxDepth ∧ t.size ≤ max 1 limits.maxContainerItems)

/-- `restore` has limits of its own for JSON. -/
def Guarded (serializer : Serializer) (t : Tree) : Prop :=
  serializer = .jsonStrict → t.depth ≤ 1000 ∧ t.size ≤ 10000000

section RoundTrip

variable {L : JsonLibrary} {heap : Heap} {limits : CapsuleLimits} {value : Obj} {raw : ByteArray}

theorem loadDocument_of_text {s : CodeText} {u : String} (hs : CodeText.text? s = some u)
    {t : Tree} (ht : L.loads s = some t) :
    loadDocument L (ByteArray.empty ++ u.toByteArray) = .ok t := by
  have hencode : CodeText.encode s = some (ByteArray.empty ++ u.toByteArray) := by
    unfold CodeText.encode
    rw [hs, ByteArray.empty_append]
    rfl
  unfold loadDocument
  rw [CodeText.decode_encode hencode]
  dsimp only
  rw [ht]

/-- JSON that is retained is restored, or refused by the guard. -/
theorem restore_json (hL : L.Lossless) {t : Tree} (hplain : t.plain false = true)
    (hdistinct : t.distinct = true)
    (hraw : retain limits.maxValueBytes 0 ByteArray.empty (utf8Chunks (some (L.iterencode t))) =
      .ok raw)
    (foreign : String → ByteArray → Except String Tree) (name : String) :
    t.encodable = true ∧
      (Guarded .jsonStrict t → restoreValue L foreign name .jsonStrict raw = .ok t.canon) ∧
      (¬ Guarded .jsonStrict t → restoreValue L foreign name .jsonStrict raw =
        .error s!"kernel capsule variable '{name}' is not strict JSON") := by
  obtain ⟨u, hu, rfl⟩ := retain_utf8 hraw
  have hencodable := hL.verbatim t hplain hdistinct (by rw [hu]; rfl)
  have hload := loadDocument_of_text hu (hL.reads t hplain hdistinct hencodable)
  have hguard : strictJsonValue t.canon = true ↔ Guarded .jsonStrict t := by
    rw [strictJsonValue_iff (plain_canon hplain), depth_canon, size_canon]
    exact ⟨fun h _ => h, fun h => h rfl⟩
  unfold restoreValue
  dsimp only
  rw [hload]
  dsimp only
  refine ⟨hencodable, fun h => ?_, fun h => ?_⟩
  · rw [if_pos (hguard.mpr h)]
  · rw [if_neg fun hyes => h (hguard.mp hyes)]

/-- A tuple that is retained is restored. -/
theorem restore_tuple (hL : L.Lossless) {items : List Tree} {root : Tree}
    (hplain : (Tree.sequence true items).plain true = true)
    (hdistinct : (Tree.sequence true items).distinct = true)
    (hroot : portableTreeEncode (.sequence true items) = some root)
    (hraw : retain limits.maxValueBytes 0 ByteArray.empty
      (utf8Chunks (some (L.iterencode (tupleDocument root)))) = .ok raw)
    (foreign : String → ByteArray → Except String Tree) (name : String) :
    (Tree.sequence true items).encodable = true ∧
      restoreValue L foreign name .tupleTree raw = .ok (Tree.sequence true items).canon := by
  have hkeys : ∀ {a b : String}, a ≠ b → ([key a, key b] : List CodeText).Nodup :=
    fun hne => wf_pair hne (text "") (text "")
  have hdocument : ∀ {leaf keys}, leaf (.str (CodeText.ofString "variant1.tuple-tree.v1")) = true →
      keys [key "schema", key "root"] = true → check leaf false keys root = true →
      check leaf false keys (tupleDocument root) = true := by
    intro leaf keys hleaf hkeys hroot
    refine check_dict.mpr ⟨hkeys, List.forall_mem_cons.mpr ⟨?_, ?_⟩⟩
    · unfold text
      rw [check_leaf]
      exact hleaf
    · rw [List.forall_mem_singleton]
      exact hroot
  have hplainDoc : (tupleDocument root).plain false = true :=
    hdocument rfl rfl (check_encode (fun _ h => h) rfl rfl hplain hroot)
  have hdistinctDoc : (tupleDocument root).distinct = true := by
    have hcheck := @hdocument (fun _ => true) (fun ks => decide ks.Nodup) rfl
      (decide_eq_true (hkeys (by decide))) (check_encode (fun _ _ => rfl)
        (decide_eq_true (hkeys (by decide))) (decide_eq_true (hkeys (by decide))) hplain hroot)
    exact check_tuples hcheck
  obtain ⟨u, hu, rfl⟩ := retain_utf8 hraw
  have hencodable := hL.verbatim _ hplainDoc hdistinctDoc (by rw [hu]; rfl)
  have hload := loadDocument_of_text hu (hL.reads _ hplainDoc hdistinctDoc hencodable)
  have hrootEncodable : root.encodable = true :=
    (check_dict.mp hencodable).2 (key "root", root) (List.mem_cons_of_mem _ List.mem_cons_self)
  have hcanon : (tupleDocument root).canon = .dict (Dict.sort
      [(key "schema", text "variant1.tuple-tree.v1"), (key "root", root.canon)]) := by
    unfold tupleDocument text
    rw [canon_dict, List.map_cons, List.map_singleton, canon_leaf]
  obtain ⟨hschema, hget⟩ := get?_pair (a := "schema") (b := "root") (by decide)
    (text "variant1.tuple-tree.v1") root.canon
  refine ⟨encodable_of_encode hroot hrootEncodable, ?_⟩
  have hdecode : decodeRoot L (Dict.sort
      [(key "schema", text "variant1.tuple-tree.v1"), (key "root", root.canon)]) =
      .ok (Tree.sequence true items).canon := by
    unfold decodeRoot
    rw [hget]
    refine portableTreeDecode_encode L hplain hdistinct hroot ?_
    rw [Option.getD_some, depth_canon]
    exact Nat.lt_succ_iff.mpr (depth_encode hroot)
  have hschemaText : isText (some (text "variant1.tuple-tree.v1")) "variant1.tuple-tree.v1" =
      true := by
    show (CodeText.ofString _ == CodeText.ofString _) = true
    exact beq_self_eq_true _
  unfold restoreValue
  dsimp only
  rw [hload, hcanon]
  dsimp only
  unfold restoreTuple
  dsimp only
  rw [hschema, if_pos hschemaText, hdecode, canon_sequence]

end RoundTrip

theorem captureValue_eq_captured {L : JsonLibrary} {other : String → Obj → List (Option ByteArray)}
    {available : String → Bool} {heap : Heap} {limits : CapsuleLimits} {value : Obj}
    {serializer : Serializer} {raw : ByteArray}
    (h : captureValue L other available heap limits value = .captured serializer raw) :
    serializerFor available heap limits value = .ok serializer ∧
      captureEncoding L other heap limits value serializer = .ok raw := by
  unfold captureValue at h
  split at h
  · exact absurd h (by simp)
  · rename_i s hs
    split at h
    · rename_i r hr
      obtain ⟨rfl, rfl⟩ := CaptureOutcome.captured.inj h
      exact ⟨hs, hr⟩
    · split at h
      · exact absurd h (by simp)
      · exact absurd h (by simp)

/-- **What is captured is restored.**  A value captured by a serializer of plain values is
a tree that can be restored exactly, and `restore` gives the equal value of the same types
at every position, unless it is JSON beyond the limits of `restore`. -/
theorem restore_captured {L : JsonLibrary} (hL : L.Lossless)
    {other : String → Obj → List (Option ByteArray)} {available : String → Bool} {heap : Heap}
    {limits : CapsuleLimits} {value : Obj} {serializer : Serializer} {raw : ByteArray}
    (h : captureValue L other available heap limits value = .captured serializer raw)
    (hplain : ∀ id, serializer ≠ .foreign id) :
    ∃ t, Denotes heap value t ∧ Restorable limits t ∧
      ∀ foreign name,
        (Guarded serializer t → restoreValue L foreign name serializer raw = .ok t.canon) ∧
        (¬ Guarded serializer t → restoreValue L foreign name serializer raw =
          .error s!"kernel capsule variable '{name}' is not strict JSON") := by
  obtain ⟨hserializer, hencoding⟩ := captureValue_eq_captured h
  unfold captureEncoding at hencoding
  rcases serializerFor_ok hserializer with ⟨s, rfl, rfl⟩ | ⟨data, rfl, rfl⟩ | ⟨id, hid⟩ |
    ⟨hanalysis, rfl⟩ | ⟨hanalysis, rfl, id, items, rfl, hobject⟩
  · obtain ⟨u, hu, rfl⟩ := retain_utf8 hencoding
    rw [flatten_slices (by decide)] at hu
    have hencodable : (Tree.leaf (.str s)).encodable = true := by
      unfold encodable
      rw [check_leaf]
      show (CodeText.text? s).isSome = true
      rw [hu]
      rfl
    refine ⟨.leaf (.str s), ⟨1, rfl⟩, ⟨hencodable, .inl ⟨s, rfl⟩⟩, fun foreign name => ?_⟩
    have hencode : CodeText.encode s = some (ByteArray.empty ++ u.toByteArray) := by
      unfold CodeText.encode
      rw [hu, ByteArray.empty_append]
      rfl
    refine ⟨fun _ => ?_, fun hno => absurd (fun hjson => absurd hjson (by simp)) hno⟩
    unfold restoreValue
    dsimp only
    rw [CodeText.decode_encode hencode, canon_leaf]
  · have hraw : raw = data := by
      unfold encodedChunks retain at hencoding
      split at hencoding
      · exact absurd hencoding (by simp)
      · rw [← Except.ok.inj hencoding, ByteArray.empty_append]
    subst hraw
    have hencodable : (Tree.leaf (.bytes raw)).encodable = true := by
      unfold encodable
      rw [check_leaf]
      rfl
    refine ⟨.leaf (.bytes raw), ⟨1, rfl⟩, ⟨hencodable, .inr (.inl ⟨raw, rfl⟩)⟩,
      fun foreign name => ⟨fun _ => ?_, fun hno => absurd (fun hjson => absurd hjson (by simp)) hno⟩⟩
    rw [canon_leaf]
    rfl
  · exact absurd hid (hplain id)
  · obtain ⟨t, ht, hdepth, hjson, hsize⟩ := read_of_analysis hanalysis
    have hchunks : encodedChunks L other heap limits value .jsonStrict =
        utf8Chunks (some (L.iterencode t)) := by
      unfold encodedChunks
      dsimp only
      rw [show limits.maxDepth + 1 = (strictJsonWalker limits.maxDepth
        limits.maxContainerItems).maxDepth + 1 from rfl, ht]
      rfl
    rw [hchunks] at hencoding
    obtain ⟨hencodable, hrestore⟩ := restore_json hL hjson (distinct_read ht) hencoding
      (fun _ _ => .error "") ""
    refine ⟨t, ⟨_, ht⟩, ⟨hencodable, .inr (.inr ⟨.inl hjson, hdepth, hsize⟩)⟩, ?_⟩
    intro foreign name
    exact (restore_json hL hjson (distinct_read ht) hencoding foreign name).2
  · obtain ⟨t, ht, hdepth, hplainTree, hsize⟩ := read_of_analysis hanalysis
    have hdistinct := distinct_read ht
    have htuple : ∃ ts, t = .sequence true ts := by
      rw [shape_sequence hobject, read_sequence] at ht
      obtain ⟨ts, -, rfl⟩ := Option.map_eq_some_iff.mp ht
      exact ⟨ts, rfl⟩
    obtain ⟨ts, rfl⟩ := htuple
    have hchunks : encodedChunks L other heap limits (.ref id) .tupleTree =
        utf8Chunks ((portableTreeEncode (.sequence true ts)).map fun root =>
          L.iterencode (tupleDocument root)) := by
      unfold encodedChunks
      dsimp only
      rw [show limits.maxDepth + 1 = (portableTreeWalker limits.maxDepth
        limits.maxContainerItems).maxDepth + 1 from rfl, ht]
      rfl
    rw [hchunks] at hencoding
    cases hroot : portableTreeEncode (.sequence true ts) with
    | none =>
        rw [hroot] at hencoding
        exact absurd hencoding (by simp [utf8Chunks, retain])
    | some root =>
        rw [hroot] at hencoding
        have hrestore := restore_tuple hL hplainTree hdistinct hroot hencoding
        refine ⟨.sequence true ts, ⟨_, ht⟩, ⟨(hrestore (fun _ _ => .error "") "").1,
          .inr (.inr ⟨.inr ⟨hplainTree, ts, rfl⟩, hdepth, hsize.trans (le_max_right _ _)⟩)⟩, ?_⟩
        intro foreign name
        exact ⟨fun _ => (hrestore foreign name).2,
          fun hno => absurd (fun hjson => absurd hjson (by simp)) hno⟩

/-! ## 7.  What is not restored -/

/-- A value with a serializer of plain values is a tree, and it can be restored exactly if its texts can be
written. -/
theorem denotes_of_serializerFor {available : String → Bool} {heap : Heap} {limits : CapsuleLimits}
    {value : Obj} {serializer : Serializer}
    (h : serializerFor available heap limits value = .ok serializer)
    (hplain : ∀ id, serializer ≠ .foreign id) :
    ∃ t, Denotes heap value t ∧ (t.encodable = true → Restorable limits t) := by
  rcases serializerFor_ok h with ⟨s, rfl, rfl⟩ | ⟨data, rfl, rfl⟩ | ⟨id, hid⟩ |
    ⟨hanalysis, rfl⟩ | ⟨hanalysis, rfl, id, items, rfl, hobject⟩
  · exact ⟨.leaf (.str s), ⟨1, rfl⟩, fun hencodable => ⟨hencodable, .inl ⟨s, rfl⟩⟩⟩
  · exact ⟨.leaf (.bytes data), ⟨1, rfl⟩, fun hencodable => ⟨hencodable, .inr (.inl ⟨data, rfl⟩)⟩⟩
  · exact absurd hid (hplain id)
  · obtain ⟨t, ht, hdepth, hjson, hsize⟩ := read_of_analysis hanalysis
    exact ⟨t, ⟨_, ht⟩, fun hencodable => ⟨hencodable, .inr (.inr ⟨.inl hjson, hdepth, hsize⟩)⟩⟩
  · obtain ⟨t, ht, hdepth, hplainTree, hsize⟩ := read_of_analysis hanalysis
    have htuple : ∃ ts, t = .sequence true ts := by
      rw [shape_sequence hobject, read_sequence] at ht
      obtain ⟨ts, -, rfl⟩ := Option.map_eq_some_iff.mp ht
      exact ⟨ts, rfl⟩
    obtain ⟨ts, rfl⟩ := htuple
    exact ⟨_, ⟨_, ht⟩, fun hencodable =>
      ⟨hencodable, .inr (.inr ⟨.inr ⟨hplainTree, ts, rfl⟩, hdepth, hsize.trans (le_max_right _ _)⟩)⟩⟩

/-- The value has a serializer, and more bytes than the limit allows come before the first text of it that
cannot be written. -/
def Overlong (L : JsonLibrary) (other : String → Obj → List (Option ByteArray)) (available : String → Bool)
    (heap : Heap) (limits : CapsuleLimits) (value : Obj) : Prop :=
  ∃ (serializer : Serializer) (before : List ByteArray) (after : List (Option ByteArray)),
    serializerFor available heap limits value = .ok serializer ∧
      encodedChunks L other heap limits value serializer = before.map some ++ none :: after ∧
        limits.maxValueBytes < (before.map ByteArray.size).sum

section NotRestored

variable {L : JsonLibrary} {other : String → Obj → List (Option ByteArray)} {available : String → Bool}
  {heap : Heap} {limits : CapsuleLimits} {value : Obj}

/-- An overlong value is too large, and one of its texts cannot be written. -/
theorem tooLarge_of_overlong (hnot : ¬ ∃ t, Denotes heap value t ∧ Restorable limits t)
    (hforeign : ∀ id, serializerFor available heap limits value ≠ .ok (.foreign id))
    (h : Overlong L other available heap limits value) :
    (∃ t, Denotes heap value t ∧ t.encodable = false) ∧ ∃ n, limits.maxValueBytes < n ∧
      captureValue L other available heap limits value = .tooLarge n := by
  obtain ⟨serializer, before, after, hserializer, hchunks, hlarge⟩ := h
  constructor
  · obtain ⟨t, ht, hrestorable⟩ := denotes_of_serializerFor hserializer fun id hid =>
      hforeign id (hid ▸ hserializer)
    exact ⟨t, ht, Bool.eq_false_of_not_eq_true fun hencodable => hnot ⟨t, ht, hrestorable hencodable⟩⟩
  · obtain ⟨n, hn, hretain⟩ := @retain_tooLarge limits.maxValueBytes 0 ByteArray.empty before (none :: after)
      (Nat.zero_le _) (by omega)
    refine ⟨n, hn, ?_⟩
    unfold captureValue captureEncoding
    rw [hserializer]
    dsimp only
    rw [hchunks, hretain]
    exact if_pos rfl

/-- A value that cannot be restored exactly is excluded with a reason, unless it is overlong. -/
theorem excluded_of_not_restorable (hL : L.Lossless)
    (hnot : ¬ ∃ t, Denotes heap value t ∧ Restorable limits t)
    (hforeign : ∀ id, serializerFor available heap limits value ≠ .ok (.foreign id))
    (h : ¬ Overlong L other available heap limits value) :
    ∃ reason, reason ≠ "" ∧ captureValue L other available heap limits value = .excluded reason := by
  cases hserializer : serializerFor available heap limits value with
  | error reason =>
      unfold captureValue
      rw [hserializer]
      refine ⟨_, ?_, rfl⟩
      split
      · exact Heap.excludedReason_ne heap value
      · exact serializerFor_error hserializer
  | ok serializer =>
      rcases exists_before (encodedChunks L other heap limits value serializer) with
        ⟨before, hchunks⟩ | ⟨before, after, hchunks⟩
      · -- where nothing raises, a larger limit lets the value be captured, and then it can be restored
        obtain ⟨raw, hraw⟩ := @retain_all (before.map ByteArray.size).sum 0 ByteArray.empty before
          (Nat.zero_add _).le
        have hcapture : captureValue L other available heap
            { limits with maxValueBytes := (before.map ByteArray.size).sum } value =
              .captured serializer raw := by
          have hsame : serializerFor available heap
              { limits with maxValueBytes := (before.map ByteArray.size).sum } value = .ok serializer :=
            hserializer
          unfold captureValue captureEncoding
          rw [hsame]
          dsimp only
          rw [show encodedChunks L other heap
            { limits with maxValueBytes := (before.map ByteArray.size).sum } value serializer =
              before.map some from hchunks, hraw]
        obtain ⟨t, ht, hrestorable, -⟩ := restore_captured hL hcapture fun id hid =>
          hforeign id (hid ▸ hserializer)
        exact absurd ⟨t, ht, hrestorable⟩ hnot
      · have hfits : (before.map ByteArray.size).sum ≤ limits.maxValueBytes :=
          not_lt.mp fun hlarge => h ⟨serializer, before, after, hserializer, hchunks, hlarge⟩
        obtain ⟨n, hretain⟩ := @retain_raises limits.maxValueBytes 0 ByteArray.empty before after (by omega)
        refine ⟨"serialization_error", by decide, ?_⟩
        unfold captureValue captureEncoding
        rw [hserializer]
        dsimp only
        rw [hchunks, hretain]
        exact if_neg (by decide)

end NotRestored

end KernelRuntime
end VariantOne
