import Mathlib.Data.List.Dedup
import Mathlib.Data.List.MinMax
import Mathlib.Data.List.Nodup
import Mathlib.Data.List.Perm.Subperm
import Mathlib.Logic.Relation
import VariantOne.Lib.Table

/-!
# Ancestry in a graph of parents

Edges lead from a parent, if there is one, to a child.  `ancestry` is the worklist that a
recursive query runs: it ends within its fuel, and finds exactly what the parents lead to
(`mem_ancestry`).  `topological` takes a node once all its parents have been taken, the
least of the ready ones first.

A `chain` is the graph of nodes appended one after the other.  Its last node has all of
them as ancestors, and they have one topological order, whatever the keys are.
-/

namespace VariantOne
namespace Dag

variable {ι : Type} [DecidableEq ι]

/-- An edge: where it comes from, if anywhere, and where it leads. -/
abbrev Edge (ι : Type) := Option ι × ι

/-- The parents of a node. -/
def parents (edges : List (Edge ι)) (x : ι) : List ι :=
  (edges.filter fun e => e.2 = x).filterMap Prod.fst

theorem mem_parents {edges : List (Edge ι)} {x y : ι} :
    y ∈ parents edges x ↔ (some y, x) ∈ edges := by
  constructor
  · intro h
    obtain ⟨⟨source, target⟩, hfilter, rfl⟩ := List.mem_filterMap.mp h
    have hmem := List.mem_filter.mp hfilter
    obtain rfl : target = x := by simpa using hmem.2
    exact hmem.1
  · intro h
    exact List.mem_filterMap.mpr ⟨_, List.mem_filter.mpr ⟨h, by simp⟩, rfl⟩

/-! ## The worklist -/

/-- Take the rows of a queue one after the other, and queue the parents that are new. -/
def closure (edges : List (Edge ι)) : Nat → List ι → List ι → List ι
  | 0, seen, _ => seen
  | _ + 1, seen, [] => seen
  | n + 1, seen, x :: queue =>
      let new := (parents edges x).dedup.filter (· ∉ seen)
      closure edges n (seen ++ new) (queue ++ new)

/-- A node and everything its parents lead to. -/
def ancestry (edges : List (Edge ι)) (head : ι) : List ι :=
  closure edges (edges.length + 1) [head] [head]

/-- Parents lead from one node to another. -/
def Reaches (edges : List (Edge ι)) : ι → ι → Prop :=
  Relation.ReflTransGen fun x y => y ∈ parents edges x

/-- The parents that have not been seen. -/
def unseen (edges : List (Edge ι)) (seen : List ι) : List ι :=
  (edges.filterMap Prod.fst).dedup.filter (· ∉ seen)

/-- What is queued is no longer unseen. -/
theorem length_unseen_append (edges : List (Edge ι)) (seen : List ι) (x : ι) :
    (unseen edges (seen ++ (parents edges x).dedup.filter (· ∉ seen))).length +
      ((parents edges x).dedup.filter (· ∉ seen)).length ≤ (unseen edges seen).length := by
  generalize hnew : (parents edges x).dedup.filter (· ∉ seen) = new
  have hnodup : new.Nodup := hnew ▸ (List.nodup_dedup _).filter _
  have hsub : new ⊆ unseen edges seen := by
    intro y hy
    rw [← hnew] at hy
    obtain ⟨hy, hseen⟩ := List.mem_filter.mp hy
    refine List.mem_filter.mpr ⟨?_, hseen⟩
    rw [List.mem_dedup] at hy ⊢
    exact List.mem_filterMap.mpr ⟨_, mem_parents.mp hy, rfl⟩
  have hsplit : unseen edges (seen ++ new) = (unseen edges seen).filter (· ∉ new) := by
    unfold unseen
    rw [List.filter_filter]
    refine List.filter_congr fun y _ => ?_
    rw [← Bool.decide_and, decide_eq_decide, List.mem_append]
    tauto
  have hcount := List.length_eq_length_filter_add (l := unseen edges seen) (· ∈ new)
  have hle : new.length ≤ ((unseen edges seen).filter (· ∈ new)).length :=
    (List.subperm_of_subset hnodup fun y hy =>
      List.mem_filter.mpr ⟨hsub hy, by simpa using hy⟩).length_le
  rw [hsplit]
  have hneg : ((unseen edges seen).filter fun y => !decide (y ∈ new)) =
      (unseen edges seen).filter (· ∉ new) := List.filter_congr fun y _ => by simp
  rw [hneg] at hcount
  omega

/-- With fuel for the queue and the unseen parents, the worklist closes what it has seen. -/
theorem mem_closure {edges : List (Edge ι)} {n : Nat} {seen queue : List ι}
    (hfuel : queue.length + (unseen edges seen).length ≤ n) (hqueue : queue ⊆ seen)
    (hclosed : ∀ x ∈ seen, x ∉ queue → ∀ y ∈ parents edges x, y ∈ seen) (y : ι) :
    y ∈ closure edges n seen queue ↔ ∃ x ∈ seen, Reaches edges x y := by
  have hdone (seen : List ι) (hclosed : ∀ x ∈ seen, ∀ y ∈ parents edges x, y ∈ seen) :
      y ∈ seen ↔ ∃ x ∈ seen, Reaches edges x y := by
    refine ⟨fun hy => ⟨y, hy, .refl⟩, ?_⟩
    rintro ⟨x, hx, hreach⟩
    induction hreach with
    | refl => exact hx
    | tail _ hstep ih => exact hclosed _ ih _ hstep
  induction n generalizing seen queue with
  | zero =>
      obtain rfl : queue = [] := List.length_eq_zero_iff.mp (by omega)
      exact hdone seen fun x hx => hclosed x hx (by simp)
  | succ n ih =>
      cases queue with
      | nil => exact hdone seen fun x hx => hclosed x hx (by simp)
      | cons x queue =>
          rw [closure]
          have hlength := length_unseen_append edges seen x
          have hx : x ∈ seen := hqueue List.mem_cons_self
          generalize hnew : (parents edges x).dedup.filter (· ∉ seen) = new at hlength ⊢
          refine (ih ?_ ?_ ?_).trans ?_
          · rw [List.length_append]
            rw [List.length_cons] at hfuel
            omega
          · intro z hz
            rcases List.mem_append.mp hz with hz | hz
            · exact List.mem_append_left _ (hqueue (List.mem_cons_of_mem _ hz))
            · exact List.mem_append_right _ hz
          · intro z hz hnotin w hw
            by_cases hzx : z = x
            · subst hzx
              by_cases hwseen : w ∈ seen
              · exact List.mem_append_left _ hwseen
              · refine List.mem_append_right _ ?_
                rw [← hnew]
                exact List.mem_filter.mpr ⟨List.mem_dedup.mpr hw, by simpa using hwseen⟩
            · rw [List.mem_append, not_or] at hnotin
              rcases List.mem_append.mp hz with hz | hz
              · refine List.mem_append_left _ (hclosed z hz ?_ w hw)
                rw [List.mem_cons, not_or]
                exact ⟨hzx, hnotin.1⟩
              · exact absurd hz hnotin.2
          · constructor
            · rintro ⟨z, hz, hreach⟩
              rcases List.mem_append.mp hz with hz | hz
              · exact ⟨z, hz, hreach⟩
              · rw [← hnew] at hz
                have hzx := List.mem_dedup.mp (List.mem_of_mem_filter hz)
                exact ⟨x, hx, .head hzx hreach⟩
            · rintro ⟨z, hz, hreach⟩
              exact ⟨z, List.mem_append_left _ hz, hreach⟩

/-- **The ancestry of a node is what parents lead to.** -/
theorem mem_ancestry {edges : List (Edge ι)} {head y : ι} :
    y ∈ ancestry edges head ↔ Reaches edges head y := by
  have hunseen : (unseen edges [head]).length ≤ edges.length :=
    (List.length_filter_le _ _).trans
      ((List.dedup_sublist _).length_le.trans (List.length_filterMap_le _ _))
  have hfuel : [head].length + (unseen edges [head]).length ≤ edges.length + 1 := by
    rw [List.length_singleton]
    omega
  refine (mem_closure hfuel (List.Subset.refl _) (fun x hx hnot => absurd hx hnot) y).trans ?_
  simp

/-! ## Topological order -/

section Topological

variable {κ : Type} [LinearOrder κ] (edges : List (Edge ι)) (key : ι → κ) (ids : List ι)

/-- The children of a taken node whose parents have all been taken. -/
def freed (done : List ι) (x : ι) : List ι :=
  ids.filter fun c => x ∈ parents edges c ∧ ∀ p ∈ parents edges c, p ∈ ids → p ∈ done

/-- Take the least ready node, one after the other. -/
def takeReady : Nat → List ι → List ι → List ι
  | 0, done, _ => done
  | n + 1, done, ready =>
      match ready.argmin key with
      | none => done
      | some x =>
          takeReady n (done ++ [x]) (ready.erase x ++ freed edges ids (done ++ [x]) x)

/-- The nodes in topological order; nodes on a cycle are left out. -/
def topological : List ι :=
  takeReady edges key ids ids.length []
    (ids.filter fun x => ∀ p ∈ parents edges x, p ∉ ids)

end Topological

/-! ## Chains -/

/-- The edges of nodes appended one after the other, after `previous`. -/
def chainFrom (previous : Option ι) : List ι → List (Edge ι)
  | [] => []
  | x :: xs => (previous, x) :: chainFrom (some x) xs

/-- The edges of a chain. -/
def chain (ids : List ι) : List (Edge ι) := chainFrom none ids

omit [DecidableEq ι] in
theorem chainFrom_append (previous : Option ι) (xs ys : List ι) :
    chainFrom previous (xs ++ ys) =
      chainFrom previous xs ++ chainFrom (xs.getLast?.or previous) ys := by
  induction xs generalizing previous with
  | nil => rfl
  | cons x xs ih =>
      rw [List.cons_append, chainFrom, ih, chainFrom, List.cons_append]
      cases xs with
      | nil => rfl
      | cons y xs => rw [List.getLast?_cons_cons, List.getLast?_cons]; rfl

omit [DecidableEq ι] in
/-- Appending a node appends an edge from the last one. -/
theorem chain_append_singleton (xs : List ι) (y : ι) :
    chain (xs ++ [y]) = chain xs ++ [(xs.getLast?, y)] := by
  rw [chain, chainFrom_append]
  show _ ++ [(xs.getLast?.or none, y)] = _
  rw [Option.or_none]
  rfl

omit [DecidableEq ι] in
theorem mem_chainFrom {previous : Option ι} {ids : List ι} {x c : ι} :
    (some x, c) ∈ chainFrom previous ids ↔
      (∃ before after, ids = before ++ x :: c :: after) ∨
        previous = some x ∧ ∃ after, ids = c :: after := by
  induction ids generalizing previous with
  | nil => simp [chainFrom]
  | cons y ids ih =>
      rw [chainFrom, List.mem_cons, ih]
      constructor
      · rintro (heq | ⟨before, after, rfl⟩ | ⟨hx, after, rfl⟩)
        · obtain ⟨rfl, rfl⟩ := Prod.mk.inj heq
          exact .inr ⟨rfl, ids, rfl⟩
        · exact .inl ⟨y :: before, after, rfl⟩
        · obtain rfl := Option.some.inj hx
          exact .inl ⟨[], after, rfl⟩
      · rintro (⟨before, after, heq⟩ | ⟨rfl, after, heq⟩)
        · cases before with
          | nil =>
              obtain ⟨rfl, rfl⟩ := List.cons.inj heq
              exact .inr (.inr ⟨rfl, after, rfl⟩)
          | cons z before =>
              obtain ⟨rfl, rfl⟩ := List.cons.inj heq
              exact .inr (.inl ⟨before, after, rfl⟩)
        · obtain ⟨rfl, rfl⟩ := List.cons.inj heq
          exact .inl rfl

theorem mem_parents_chain {ids : List ι} {x c : ι} :
    x ∈ parents (chain ids) c ↔ ∃ before after, ids = before ++ x :: c :: after := by
  rw [mem_parents, chain, mem_chainFrom]
  simp

/-- The last node of a chain has every node as an ancestor. -/
theorem reaches_chain {before after : List ι} {x y : ι} (hx : (before ++ x :: after).getLast? = some y) :
    Reaches (chain (before ++ x :: after)) y x := by
  generalize hids : before ++ x :: after = ids at hx
  induction after generalizing before x with
  | nil =>
      rw [← hids, List.getLast?_concat] at hx
      obtain rfl := Option.some.inj hx
      exact .refl
  | cons z after ih =>
      have hz : Reaches (chain ids) y z :=
        @ih (before ++ [x]) z (by rw [List.append_assoc]; exact hids)
      exact hz.tail (mem_parents_chain.mpr ⟨before, after, hids.symm⟩)

/-- A node splits a list without repetitions in one way. -/
theorem split_unique {before before' after after' : List ι} {x : ι}
    (hnodup : (before ++ x :: after).Nodup)
    (heq : before ++ x :: after = before' ++ x :: after') : before = before' ∧ after = after' := by
  have hnot : x ∉ before := fun hx =>
    (List.nodup_append.mp hnodup).2.2 x hx x List.mem_cons_self rfl
  have hnot' : x ∉ before' := fun hx =>
    (List.nodup_append.mp (heq ▸ hnodup)).2.2 x hx x List.mem_cons_self rfl
  have hlength : before.length = before'.length := by
    have hidx := congrArg (List.idxOf x) heq
    rwa [List.idxOf_append_of_notMem hnot, List.idxOf_append_of_notMem hnot', List.idxOf_cons_self,
      List.idxOf_cons_self] at hidx
  obtain ⟨hbefore, hcons⟩ := List.append_inj heq hlength
  exact ⟨hbefore, (List.cons.inj hcons).2⟩

/-- In a chain, a node is the one parent of the next. -/
theorem parent_iff_of_split {before after : List ι} {x y : ι}
    (hnodup : (before ++ x :: y :: after).Nodup) (p : ι) :
    p ∈ parents (chain (before ++ x :: y :: after)) y ↔ p = x := by
  rw [mem_parents_chain]
  constructor
  · rintro ⟨before', after', heq⟩
    have hassoc (l r : List ι) (a : ι) : l ++ a :: y :: r = (l ++ [a]) ++ y :: r := by simp
    rw [hassoc] at hnodup heq
    rw [hassoc] at heq
    have hlast := (split_unique hnodup heq).1
    exact (List.append_singleton_inj.mp hlast).2.symm
  · rintro rfl
    exact ⟨before, after, rfl⟩

/-- Taking a node of a chain frees the next one. -/
theorem freed_chain {before after : List ι} {x : ι} (hnodup : (before ++ x :: after).Nodup) :
    freed (chain (before ++ x :: after)) (before ++ x :: after) (before ++ [x]) x =
      after.head?.toList := by
  have hnext (c : ι) : x ∈ parents (chain (before ++ x :: after)) c ↔ ∃ rest, after = c :: rest := by
    rw [mem_parents_chain]
    constructor
    · rintro ⟨before', after', heq⟩
      exact ⟨after', (split_unique hnodup heq).2⟩
    · rintro ⟨rest, rfl⟩
      exact ⟨before, rest, rfl⟩
  unfold freed
  cases after with
  | nil =>
      refine List.filter_eq_nil_iff.mpr fun c _ hc => ?_
      obtain ⟨rest, hrest⟩ := (hnext c).mp (of_decide_eq_true hc).1
      exact absurd hrest (by simp)
  | cons y after =>
      have hy : y ∈ before ++ x :: y :: after := by simp
      have hids : ((before ++ x :: y :: after).map id).Nodup := by simpa using hnodup
      refine (List.filter_congr fun c _ => ?_).trans (filter_eq_singleton hids hy rfl)
      rw [decide_eq_decide]
      constructor
      · rintro ⟨hc, -⟩
        obtain ⟨rest, hrest⟩ := (hnext c).mp hc
        exact (List.cons.inj hrest).1.symm
      · rintro rfl
        refine ⟨(hnext c).mpr ⟨after, rfl⟩, fun p hp _ => ?_⟩
        rw [(parent_iff_of_split hnodup p).mp hp]
        simp

section TakeReady

variable {κ : Type} [LinearOrder κ] (key : ι → κ)

theorem takeReady_nil (edges : List (Edge ι)) (ids : List ι) (n : Nat) (done : List ι) :
    takeReady edges key ids n done [] = done := by
  cases n <;> rfl

theorem takeReady_chain {before after : List ι} {x : ι} (hnodup : (before ++ x :: after).Nodup)
    {n : Nat} (hn : after.length < n) :
    takeReady (chain (before ++ x :: after)) key (before ++ x :: after) n before [x] =
      before ++ x :: after := by
  induction after generalizing before x n with
  | nil =>
      obtain ⟨m, rfl⟩ : ∃ m, n = m + 1 := ⟨n - 1, by simp at hn; omega⟩
      rw [takeReady, List.argmin_singleton]
      simp only [freed_chain hnodup, List.erase_cons_head, List.head?_nil, Option.toList_none,
        List.append_nil, takeReady_nil]
  | cons y after ih =>
      obtain ⟨m, rfl⟩ : ∃ m, n = m + 1 := ⟨n - 1, by omega⟩
      rw [takeReady, List.argmin_singleton]
      simp only [freed_chain hnodup, List.erase_cons_head, List.head?_cons, Option.toList_some,
        List.nil_append]
      have hassoc : before ++ x :: y :: after = (before ++ [x]) ++ y :: after := by simp
      rw [hassoc] at hnodup ⊢
      exact ih hnodup (by rw [List.length_cons] at hn; omega)

/-- **A chain has one topological order.** -/
theorem topological_chain {ids : List ι} (hnodup : ids.Nodup) :
    topological (chain ids) key ids = ids := by
  cases ids with
  | nil => rfl
  | cons x rest =>
      have hready : ((x :: rest).filter fun c => ∀ p ∈ parents (chain (x :: rest)) c, p ∉ x :: rest) =
          [x] := by
        have hids : ((x :: rest).map id).Nodup := by simpa using hnodup
        refine (List.filter_congr fun c hc => ?_).trans
          (filter_eq_singleton hids List.mem_cons_self rfl)
        rw [decide_eq_decide]
        constructor
        · intro hparents
          -- Every later node has a parent in the chain.
          obtain ⟨before, after, hsplit⟩ := List.append_of_mem hc
          rcases List.eq_nil_or_concat before with rfl | ⟨before, p, rfl⟩
          · exact (List.cons.inj hsplit).1.symm
          · have hp : p ∈ parents (chain (x :: rest)) c :=
              mem_parents_chain.mpr ⟨before, after, by simpa using hsplit⟩
            refine absurd ?_ (hparents p hp)
            rw [hsplit]
            simp
        · rintro rfl p hp
          obtain ⟨before, after, hsplit⟩ := mem_parents_chain.mp hp
          have hsplit : ([] : List ι) ++ c :: rest = (before ++ [p]) ++ c :: after := by
            simpa using hsplit
          exact absurd (split_unique hnodup hsplit).1 (by simp)
      unfold topological
      rw [hready]
      have hnodup : (([] : List ι) ++ x :: rest).Nodup := hnodup
      exact takeReady_chain key hnodup (by simp)

end TakeReady

end Dag
end VariantOne
