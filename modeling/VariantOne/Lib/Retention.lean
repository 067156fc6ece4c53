import VariantOne.Lib.Dict

/-!
# Tables that forget their oldest outcomes

A table holds pending and settled entries under keys.  Settling an entry puts it at the end and
then forgets the oldest settled entries beyond a capacity; a pending entry is never forgotten.

## 1.  What is forgotten

`store_of_ne` is the general statement: an entry with at most `n` settled entries behind it has at
most `n + 1` behind it after another key was settled, or it was forgotten, and then the capacity is
at most `n + 1`.  So an outcome is forgotten only when as many others as the capacity were settled
after it.

## 2.  What is kept

Pending entries (`get?_store_pending`), absent keys (`get?_store_none`), and the entry that was
settled last (`store_self`).
-/

namespace VariantOne
namespace Retention

variable {κ α : Type*} [DecidableEq κ] (settled : α → Bool)

/-- The settled entries of a table. -/
def outcomes (d : List (κ × α)) : List (κ × α) := d.filter fun e => settled e.2

/-- The keys of the settled entries beyond the capacity, the oldest first. -/
def surplus (capacity : Nat) (d : List (κ × α)) : List κ :=
  (Dict.keys (outcomes settled d)).take ((Dict.keys (outcomes settled d)).length - capacity)

/-- The table without what is forgotten. -/
def evict (capacity : Nat) (d : List (κ × α)) : List (κ × α) :=
  d.filter fun e => !(surplus settled capacity d).contains e.1

/-- The table after an entry was settled. -/
def store (capacity : Nat) (d : List (κ × α)) (k : κ) (v : α) : List (κ × α) :=
  evict settled capacity (d.filter (fun e => !decide (e.1 = k)) ++ [(k, v)])

/-- The table has an entry with at most `n` settled entries behind it. -/
def Within (d : List (κ × α)) (k : κ) (v : α) (n : Nat) : Prop :=
  ∃ older newer, d = older ++ (k, v) :: newer ∧ (outcomes settled newer).length ≤ n

variable {settled} {capacity n : Nat} {d : List (κ × α)} {k k' : κ} {v w : α}

/-! ## 1.  Well-formed tables -/

theorem wf_evict (hd : Dict.WF d) : Dict.WF (evict settled capacity d) :=
  hd.sublist List.filter_sublist

theorem wf_moved (hd : Dict.WF d) (k : κ) (v : α) :
    Dict.WF (d.filter (fun e => !decide (e.1 = k)) ++ [(k, v)]) := by
  unfold Dict.WF
  rw [Dict.keys_append]
  refine List.Nodup.append (hd.sublist List.filter_sublist) (by simp) ?_
  intro x hx hk
  obtain ⟨u, hu⟩ := Dict.mem_keys.mp hx
  have hne : x ≠ k := by simpa using (List.mem_filter.mp hu).2
  exact hne (by simpa using hk)

theorem wf_store (hd : Dict.WF d) : Dict.WF (store settled capacity d k v) := wf_evict (wf_moved hd k v)

/-- The entry of a split table. -/
theorem Within.get? (hd : Dict.WF d) (h : Within settled d k v n) : Dict.get? d k = some v := by
  obtain ⟨older, newer, rfl, -⟩ := h
  exact (hd.get?_eq_some_iff).mpr (by simp)

omit [DecidableEq κ] in
/-- A pending entry that is added at the end leaves the outcomes where they are. -/
theorem Within.append (h : Within settled d k v n) (hw : settled w = false) :
    Within settled (d ++ [(k', w)]) k v n := by
  obtain ⟨older, newer, rfl, hlen⟩ := h
  refine ⟨older, newer ++ [(k', w)], by simp, ?_⟩
  have hsame : outcomes settled (newer ++ [(k', w)]) = outcomes settled newer := by
    simp [outcomes, hw]
  rw [hsame]
  exact hlen

/-! ## 2.  The surplus -/

omit [DecidableEq κ] in
/-- A key of the surplus is the key of a settled entry. -/
theorem exists_of_mem_surplus (h : k ∈ surplus settled capacity d) :
    ∃ v, (k, v) ∈ d ∧ settled v = true := by
  obtain ⟨v, hv⟩ := Dict.mem_keys.mp (List.mem_of_mem_take h)
  exact ⟨v, (List.mem_filter.mp hv).1, (List.mem_filter.mp hv).2⟩

omit [DecidableEq κ] in
/-- **An entry of the surplus has the capacity behind it.** -/
theorem capacity_le_of_mem_surplus {older newer : List (κ × α)}
    (hd : Dict.WF (older ++ (k, v) :: newer)) (hv : settled v = true)
    (h : k ∈ surplus settled capacity (older ++ (k, v) :: newer)) :
    capacity ≤ (outcomes settled newer).length := by
  by_contra hlt
  have hkeys : Dict.keys (outcomes settled (older ++ (k, v) :: newer)) =
      Dict.keys (outcomes settled older) ++ k :: Dict.keys (outcomes settled newer) := by
    simp [outcomes, hv]
  have hlen : ∀ l : List (κ × α), (Dict.keys l).length = l.length := fun l => by simp [Dict.keys]
  unfold surplus at h
  rw [hkeys, List.length_append, List.length_cons, hlen, hlen] at h
  rw [List.take_append_of_le_length (by rw [hlen]; omega)] at h
  obtain ⟨u, hu⟩ := Dict.mem_keys.mp (List.mem_of_mem_take h)
  have holder : k ∈ Dict.keys older := Dict.mem_keys_of_mem (List.mem_filter.mp hu).1
  unfold Dict.WF at hd
  rw [Dict.keys_append, Dict.keys_cons] at hd
  exact (List.nodup_append.mp hd).2.2 k holder k (by simp) rfl

/-- What is not of the surplus stays. -/
theorem get?_evict (h : k ∉ surplus settled capacity d) :
    Dict.get? (evict settled capacity d) k = Dict.get? d k := by
  have hrestrict := Dict.get?_restrict (fun x => !(surplus settled capacity d).contains x) d k
  rw [if_pos (by simpa using h)] at hrestrict
  exact hrestrict

theorem get?_evict_surplus (h : k ∈ surplus settled capacity d) :
    Dict.get? (evict settled capacity d) k = none := by
  have hrestrict := Dict.get?_restrict (fun x => !(surplus settled capacity d).contains x) d k
  rw [if_neg (by simpa using h)] at hrestrict
  exact hrestrict

/-- **An eviction keeps an entry where it is, or forgets it.** -/
theorem Within.evict (hd : Dict.WF d) (h : Within settled d k v n) (hv : settled v = true) :
    Within settled (evict settled capacity d) k v n ∨
      Dict.get? (Retention.evict settled capacity d) k = none ∧ capacity ≤ n := by
  obtain ⟨older, newer, rfl, hlen⟩ := h
  by_cases hk : k ∈ surplus settled capacity (older ++ (k, v) :: newer)
  · exact .inr ⟨get?_evict_surplus hk, (capacity_le_of_mem_surplus hd hv hk).trans hlen⟩
  · have hsplit := List.filter_append (p := fun e =>
      !(surplus settled capacity (older ++ (k, v) :: newer)).contains e.1) older ((k, v) :: newer)
    rw [List.filter_cons_of_pos (by simpa using hk)] at hsplit
    refine .inl ⟨_, _, hsplit, le_trans (List.Sublist.length_le ?_) hlen⟩
    exact List.Sublist.filter _ List.filter_sublist

/-! ## 3.  Settling -/

/-- A pending entry of another key is not forgotten. -/
theorem get?_evict_pending (hd : Dict.WF d) (h : Dict.get? d k = some v) (hv : settled v = false) :
    Dict.get? (evict settled capacity d) k = some v := by
  rw [get?_evict, h]
  intro hk
  obtain ⟨u, hu, hsettled⟩ := exists_of_mem_surplus hk
  rw [hd.eq_of_mem hu (Dict.mem_of_get? h), hv] at hsettled
  exact absurd hsettled (by simp)

/-- Moving another key to the end does not touch an entry. -/
theorem get?_moved (hne : k ≠ k') (d : List (κ × α)) (w : α) :
    Dict.get? (d.filter (fun e => !decide (e.1 = k')) ++ [(k', w)]) k = Dict.get? d k := by
  have hrestrict := Dict.get?_restrict (fun x => !decide (x = k')) d k
  rw [if_pos (by simpa using hne)] at hrestrict
  rw [Dict.get?_append, Dict.get?_cons, if_neg (Ne.symm hne), Dict.get?_nil, Option.or_none]
  exact hrestrict

theorem get?_store_pending (hd : Dict.WF d) (hne : k ≠ k') (h : Dict.get? d k = some v)
    (hv : settled v = false) : Dict.get? (store settled capacity d k' w) k = some v :=
  get?_evict_pending (wf_moved hd k' w) ((get?_moved hne d w).trans h) hv

theorem get?_store_none (hne : k ≠ k') (h : Dict.get? d k = none) :
    Dict.get? (store settled capacity d k' w) k = none := by
  have hmoved := (get?_moved hne d w).trans h
  by_cases hk : k ∈ surplus settled capacity (d.filter (fun e => !decide (e.1 = k')) ++ [(k', w)])
  · exact get?_evict_surplus hk
  · exact (get?_evict hk).trans hmoved

/-- The entry that was settled last has nothing behind it. -/
theorem store_self (hd : Dict.WF d) (hv : settled v = true) (hcapacity : 0 < capacity) :
    Within settled (store settled capacity d k v) k v 0 := by
  have h : Within settled (d.filter (fun e => !decide (e.1 = k)) ++ [(k, v)]) k v 0 :=
    ⟨_, [], rfl, le_of_eq rfl⟩
  refine (h.evict (wf_moved hd k v) hv).resolve_right fun hforgotten => ?_
  have hzero := hforgotten.2
  omega

/-- **Settling another key** puts one outcome more behind an entry, or forgets it. -/
theorem store_of_ne (hd : Dict.WF d) (hne : k ≠ k') (h : Within settled d k v n)
    (hv : settled v = true) :
    Within settled (store settled capacity d k' w) k v (n + 1) ∨
      Dict.get? (store settled capacity d k' w) k = none ∧ capacity ≤ n + 1 := by
  have hmoved : Within settled (d.filter (fun e => !decide (e.1 = k')) ++ [(k', w)]) k v (n + 1) := by
    obtain ⟨older, newer, rfl, hlen⟩ := h
    refine ⟨older.filter fun e => !decide (e.1 = k'),
      newer.filter (fun e => !decide (e.1 = k')) ++ [(k', w)], ?_, ?_⟩
    · rw [List.filter_append, List.filter_cons_of_pos (by simpa using hne), List.append_assoc,
        List.cons_append]
    · have hnewer : (outcomes settled (newer.filter fun e => !decide (e.1 = k'))).length ≤
          (outcomes settled newer).length :=
        List.Sublist.length_le (List.Sublist.filter _ List.filter_sublist)
      have hlast : (outcomes settled [(k', w)]).length ≤ 1 := List.length_filter_le _ _
      unfold outcomes at *
      rw [List.filter_append, List.length_append]
      omega
  exact hmoved.evict (wf_moved hd k' w) hv

end Retention
end VariantOne
