import Mathlib.Data.List.Nodup

/-!
# Answers bound to requests

Requests are answered from a list, each answer at most once.  An answer may name the key of the
request it belongs to, its *owner*, and is then taken for that request.  A request no answer names
takes the first answer of its kind that is left, and that answer may belong to a later request.

`onlyOwners_iff` says when that does not happen: before every answer of the kind that is still owed
there are more answers without an owner than earlier requests that take one.
-/

namespace VariantOne

/-- The last index at which a test holds. -/
def lastIdx? {α : Type} (p : α → Bool) : List α → Option Nat
  | [] => none
  | a :: as =>
      match lastIdx? p as with
      | some j => some (j + 1)
      | none => if p a then some 0 else none

theorem lastIdx?_eq_none {α : Type} {p : α → Bool} {as : List α} (h : lastIdx? p as = none) :
    ∀ a ∈ as, p a = false := by
  induction as with
  | nil => simp
  | cons a as ih =>
      rw [lastIdx?] at h
      cases hrest : lastIdx? p as with
      | some j =>
          rw [hrest] at h
          cases h
      | none =>
          rw [hrest] at h
          refine List.forall_mem_cons.mpr ⟨?_, ih hrest⟩
          by_contra hpa
          rw [Bool.not_eq_false] at hpa
          dsimp only at h
          rw [if_pos hpa] at h
          cases h

theorem lastIdx?_eq_some {α : Type} {p : α → Bool} {as : List α} {j : Nat} (h : lastIdx? p as = some j) :
    ∃ a, as[j]? = some a ∧ p a = true := by
  induction as generalizing j with
  | nil => cases h
  | cons a as ih =>
      rw [lastIdx?] at h
      cases hrest : lastIdx? p as with
      | some i =>
          rw [hrest] at h
          obtain rfl := Option.some.inj h
          exact ih hrest
      | none =>
          rw [hrest] at h
          dsimp only at h
          split at h
          · rename_i hpa
            obtain rfl := Option.some.inj h
            exact ⟨a, rfl, hpa⟩
          · cases h

/-! ## 1.  Counting up to an index -/

section Count

variable {α : Type} {p : α → Bool} {as : List α}

theorem countP_take_succ {j : Nat} {a : α} (h : as[j]? = some a) :
    (as.take (j + 1)).countP p = (as.take j).countP p + if p a then 1 else 0 := by
  rw [List.take_add_one, h, Option.toList_some, List.countP_append, List.countP_singleton]

theorem countP_take_le {i j : Nat} (h : i ≤ j) : (as.take i).countP p ≤ (as.take j).countP p :=
  (List.take_sublist_take_left h).countP_le

/-- A place counts for every place after it. -/
theorem countP_take_lt {i j : Nat} {a : α} (hij : i < j) (hi : as[i]? = some a) (ha : p a = true) :
    (as.take i).countP p < (as.take j).countP p := by
  have hstep := countP_take_succ (p := p) hi
  rw [if_pos ha] at hstep
  calc (as.take i).countP p < (as.take i).countP p + 1 := Nat.lt_succ_self _
    _ = (as.take (i + 1)).countP p := hstep.symm
    _ ≤ (as.take j).countP p := countP_take_le hij

/-- Where more than `n` have been counted, one was the `n`-th. -/
theorem exists_countP_take {n j : Nat} (h : n < (as.take j).countP p) :
    ∃ i a, i < j ∧ as[i]? = some a ∧ p a = true ∧ (as.take i).countP p = n := by
  induction j with
  | zero => simp at h
  | succ j ih =>
      by_cases hold : n < (as.take j).countP p
      · obtain ⟨i, a, hij, hrest⟩ := ih hold
        exact ⟨i, a, Nat.lt_succ_of_lt hij, hrest⟩
      · cases haj : as[j]? with
        | none =>
            rw [List.take_add_one, haj, Option.toList_none, List.append_nil] at h
            exact absurd h hold
        | some a =>
            rw [countP_take_succ haj] at h
            by_cases hpa : p a = true
            · rw [if_pos hpa] at h
              exact ⟨j, a, Nat.lt_succ_self j, haj, hpa, by omega⟩
            · rw [if_neg hpa] at h
              exact absurd h hold

end Count

/-- What requests and answers are told apart by. -/
structure Binding (ρ α κ τ : Type) where
  key : ρ → κ
  kind : ρ → τ
  owner : α → Option κ
  sort : α → τ

namespace Binding

variable {ρ α κ τ : Type} [DecidableEq κ] [DecidableEq τ] (B : Binding ρ α κ τ) (answers : List α)

/-! ## 2.  The loop -/

/-- The answer that names a key. -/
def own (k : κ) : Option Nat := lastIdx? (fun a => decide (B.owner a = some k)) answers

/-- The first answer of a kind that is left. -/
def free (used : List Nat) (t : τ) : Option Nat :=
  (answers.zipIdx.find? fun a => decide (a.2 ∉ used) && decide (B.sort a.1 = t)).map (·.2)

/-- The answer a request takes. -/
def pick (used : List Nat) (r : ρ) : Option Nat :=
  match (B.own answers (B.key r)).filter (decide <| · ∉ used) with
  | some j => some j
  | none => B.free answers used (B.kind r)

/-- Every request takes an answer, in order. -/
def bind (used : List Nat) : List ρ → List (ρ × Option Nat)
  | [] => []
  | r :: rs => (r, B.pick answers used r) :: bind ((B.pick answers used r).toList ++ used) rs

variable {B answers}

theorem map_fst_bind (used : List Nat) (rs : List ρ) : (B.bind answers used rs).map Prod.fst = rs := by
  induction rs generalizing used with
  | nil => rfl
  | cons r rs ih => rw [bind, List.map_cons, ih]

omit [DecidableEq κ] in
theorem free_eq_some {used : List Nat} {t : τ} {j : Nat} (h : B.free answers used t = some j) :
    ∃ a, answers[j]? = some a ∧ j ∉ used ∧ B.sort a = t ∧
      ∀ i b, i < j → answers[i]? = some b → B.sort b = t → i ∈ used := by
  obtain ⟨⟨a, i⟩, hfind, rfl⟩ := Option.map_eq_some_iff.mp h
  obtain ⟨hmatch, n, hn, hat, hbefore⟩ := List.find?_eq_some_iff_getElem.mp hfind
  rw [List.length_zipIdx] at hn
  rw [List.getElem_zipIdx, Nat.zero_add] at hat
  obtain ⟨rfl, rfl⟩ := Prod.mk.inj hat
  rw [Bool.and_eq_true, decide_eq_true_iff, decide_eq_true_iff] at hmatch
  refine ⟨_, List.getElem?_eq_getElem hn, hmatch.1, hmatch.2, fun i b hi hb hsort => ?_⟩
  have hpass := hbefore i hi
  obtain ⟨hlt, rfl⟩ := List.getElem?_eq_some_iff.mp hb
  rw [List.getElem_zipIdx, Nat.zero_add] at hpass
  by_contra hused
  simp [hused, hsort] at hpass

omit [DecidableEq κ] in
theorem free_eq_none {used : List Nat} {t : τ} (h : B.free answers used t = none) {i : Nat} {b : α}
    (hb : answers[i]? = some b) (hsort : B.sort b = t) : i ∈ used := by
  have hnone := List.find?_eq_none.mp (Option.map_eq_none_iff.mp h) (b, i)
    (List.mk_mem_zipIdx_iff_getElem?.mpr hb)
  by_contra hused
  simp [hused, hsort] at hnone

/-- No answer is taken that was taken before. -/
theorem pick_not_mem {used : List Nat} {r : ρ} {j : Nat} (h : B.pick answers used r = some j) : j ∉ used := by
  unfold pick at h
  split at h
  · rename_i i hi
    obtain rfl := Option.some.inj h
    exact of_decide_eq_true (Option.filter_eq_some_iff.mp hi).2
  · obtain ⟨-, -, hfree, -⟩ := free_eq_some h
    exact hfree

/-- **No answer is taken twice.** -/
theorem nodup_bind (used : List Nat) (rs : List ρ) :
    ((B.bind answers used rs).filterMap Prod.snd).Nodup ∧
      ∀ j ∈ (B.bind answers used rs).filterMap Prod.snd, j ∉ used := by
  induction rs generalizing used with
  | nil => simp [bind]
  | cons r rs ih =>
      obtain ⟨hnodup, hfresh⟩ := ih ((B.pick answers used r).toList ++ used)
      rw [bind]
      cases hpick : B.pick answers used r with
      | none =>
          rw [hpick] at hnodup hfresh
          rw [List.filterMap_cons_none rfl]
          exact ⟨hnodup, hfresh⟩
      | some j =>
          rw [hpick] at hnodup hfresh
          rw [show List.filterMap Prod.snd ((r, some j) :: B.bind answers ((some j).toList ++ used) rs) =
            j :: List.filterMap Prod.snd (B.bind answers ((some j).toList ++ used) rs) from rfl]
          refine ⟨List.nodup_cons.mpr ⟨fun hmem => ?_, hnodup⟩, List.forall_mem_cons.mpr ⟨?_, fun i hi => ?_⟩⟩
          · exact hfresh j hmem (by simp)
          · exact pick_not_mem hpick
          · exact fun hused => hfresh i hi (List.mem_append_right _ hused)

/-! ## 3.  When no answer goes astray -/

variable (B answers)

/-- An answer names the key. -/
def owned (k : κ) : Bool := answers.any fun a => decide (B.owner a = some k)

/-- The requests of a kind that no answer names. -/
def waiting (t : τ) (rs : List ρ) : Nat :=
  rs.countP fun r => decide (B.kind r = t) && !B.owned answers (B.key r)

/-- The answers of a kind without an owner, before an index. -/
def spare (t : τ) (j : Nat) : Nat :=
  (answers.take j).countP fun a => decide (B.owner a = none) && decide (B.sort a = t)

/-- An answer with an owner is taken by no other request. -/
def OnlyOwners (bound : List (ρ × Option Nat)) : Prop :=
  ∀ b ∈ bound, ∀ j a k, b.2 = some j → answers[j]? = some a → B.owner a = some k → k = B.key b.1

/-- A request no answer names finds an answer without an owner before the answers that are owed. -/
def EnoughAt (before : List ρ) (r : ρ) : Prop :=
  B.owned answers (B.key r) = false → ∀ j a k, answers[j]? = some a → B.owner a = some k →
    B.sort a = B.kind r → k ∉ before.map B.key →
      B.waiting answers (B.kind r) before < B.spare answers (B.kind r) j

/-- Every request does. -/
def Enough (rs : List ρ) : Prop :=
  ∀ before r after, rs = before ++ r :: after → B.EnoughAt answers before r

/-- No two answers have one owner. -/
def OneOwner : Prop := answers.Pairwise fun a b => ∀ k, B.owner a = some k → B.owner b ≠ some k

/-- What is taken when every earlier request took its own answer or one without an owner. -/
structure Fair (before : List ρ) (used : List Nat) : Prop where
  owned : ∀ {j a k}, answers[j]? = some a → B.owner a = some k → (j ∈ used ↔ k ∈ before.map B.key)
  spare : ∀ {j a}, answers[j]? = some a → B.owner a = none →
    (j ∈ used ↔ B.spare answers (B.sort a) j < B.waiting answers (B.sort a) before)

variable {B answers}

omit [DecidableEq κ] [DecidableEq τ] in
theorem OneOwner.index {i j : Nat} {a b : α} {k : κ} (h : B.OneOwner answers) (hi : answers[i]? = some a)
    (hj : answers[j]? = some b) (ha : B.owner a = some k) (hb : B.owner b = some k) : i = j := by
  obtain ⟨hilt, rfl⟩ := List.getElem?_eq_some_iff.mp hi
  obtain ⟨hjlt, rfl⟩ := List.getElem?_eq_some_iff.mp hj
  rcases Nat.lt_trichotomy i j with hlt | heq | hgt
  · exact absurd hb (List.pairwise_iff_getElem.mp h i j hilt hjlt hlt k ha)
  · exact heq
  · exact absurd ha (List.pairwise_iff_getElem.mp h j i hjlt hilt hgt k hb)

omit [DecidableEq τ] in
theorem owned_eq_false {k : κ} (h : B.owned answers k = false) {j : Nat} {a : α} (hj : answers[j]? = some a) :
    B.owner a ≠ some k := by
  have hall := List.any_eq_false.mp h a (List.mem_of_getElem? hj)
  simpa using hall

theorem waiting_snoc (t : τ) (rs : List ρ) (r : ρ) :
    B.waiting answers t (rs ++ [r]) =
      B.waiting answers t rs + if B.kind r = t ∧ B.owned answers (B.key r) = false then 1 else 0 := by
  unfold waiting
  rw [List.countP_append, List.countP_singleton]
  simp

theorem fair_nil : B.Fair answers [] [] where
  owned := by simp
  spare := by simp [waiting]

/-- A request that an answer names takes it. -/
theorem Fair.pick_own {before : List ρ} {used : List Nat} {r : ρ} (hone : B.OneOwner answers)
    (hfair : B.Fair answers before used) (hnew : B.key r ∉ before.map B.key) {j : Nat} {a : α}
    (hj : answers[j]? = some a) (ha : B.owner a = some (B.key r)) : B.pick answers used r = some j := by
  have hown : B.own answers (B.key r) = some j := by
    unfold own
    cases hlast : lastIdx? (fun a => decide (B.owner a = some (B.key r))) answers with
    | none => exact absurd ha (by simpa using lastIdx?_eq_none hlast a (List.mem_of_getElem? hj))
    | some i =>
        obtain ⟨b, hi, hb⟩ := lastIdx?_eq_some hlast
        rw [hone.index hi hj (of_decide_eq_true hb) ha]
  have hleft : j ∉ used := fun hused => hnew ((hfair.owned hj ha).mp hused)
  rw [pick, hown, Option.filter_some_pos (by simpa using hleft)]

/-- A request no answer names takes the first answer of its kind that is left. -/
theorem pick_free {used : List Nat} {r : ρ} (h : B.owned answers (B.key r) = false) :
    B.pick answers used r = B.free answers used (B.kind r) := by
  have hown : B.own answers (B.key r) = none := by
    unfold own
    cases hlast : lastIdx? (fun a => decide (B.owner a = some (B.key r))) answers with
    | none => rfl
    | some i =>
        obtain ⟨b, hi, hb⟩ := lastIdx?_eq_some hlast
        exact absurd (of_decide_eq_true hb) (owned_eq_false h hi)
  rw [pick, hown]
  rfl

/-- The answer without an owner that is first left is the one whose turn it is. -/
theorem Fair.turn {before : List ρ} {used : List Nat} (hfair : B.Fair answers before used) {t : τ} {j : Nat}
    (hbefore : ∀ i b, i < j → answers[i]? = some b → B.sort b = t → i ∈ used) :
    B.spare answers t j ≤ B.waiting answers t before := by
  by_contra hmore
  obtain ⟨i, b, hij, hb, hp, hcount⟩ := exists_countP_take (Nat.lt_of_not_le hmore)
  rw [Bool.and_eq_true, decide_eq_true_iff, decide_eq_true_iff] at hp
  obtain ⟨hnone, rfl⟩ := hp
  have hlt := (hfair.spare hb hnone).mp (hbefore i b hij hb rfl)
  exact absurd hcount (Nat.ne_of_lt hlt)

/-- **When a request no answer names takes one that is owed.** -/
theorem Fair.astray_iff {before : List ρ} {used : List Nat} {r : ρ} (hfair : B.Fair answers before used)
    (hwait : B.owned answers (B.key r) = false) :
    (∃ j a k, B.pick answers used r = some j ∧ answers[j]? = some a ∧ B.owner a = some k) ↔
      ¬ B.EnoughAt answers before r := by
  rw [pick_free hwait]
  constructor
  · rintro ⟨j, a, k, hpick, hj, hk⟩ henough
    obtain ⟨b, hb, hleft, hsort, hbefore⟩ := free_eq_some hpick
    obtain rfl := Option.some.inj (hj.symm.trans hb)
    have hlt := henough hwait j a k hj hk hsort fun hmem => hleft ((hfair.owned hj hk).mpr hmem)
    exact absurd hlt (Nat.not_lt.mpr (hfair.turn hbefore))
  · intro hnot
    simp only [EnoughAt, not_forall] at hnot
    obtain ⟨-, j, a, k, hj, hk, hsort, howed, hfew⟩ := hnot
    have hleft : j ∉ used := fun hused => howed ((hfair.owned hj hk).mp hused)
    cases hfree : B.free answers used (B.kind r) with
    | none => exact absurd (free_eq_none hfree hj hsort) hleft
    | some c =>
        obtain ⟨b, hb, hbleft, hbsort, hbefore⟩ := free_eq_some hfree
        cases howner : B.owner b with
        | some k' => exact ⟨c, b, k', rfl, hb, howner⟩
        | none =>
            have hturn : B.waiting answers (B.kind r) before ≤ B.spare answers (B.kind r) c := by
              by_contra hlt
              rw [Nat.not_le, ← hbsort] at hlt
              exact hbleft ((hfair.spare hb howner).mpr hlt)
            have hcj : c < j := by
              rcases Nat.lt_trichotomy c j with hlt | rfl | hgt
              · exact hlt
              · obtain rfl := Option.some.inj (hj.symm.trans hb)
                rw [hk] at howner
                cases howner
              · exact absurd (hbefore j a hgt hj hsort) hleft
            have hcounts : B.spare answers (B.kind r) c < B.spare answers (B.kind r) j :=
              countP_take_lt hcj hb (by simp [howner, hbsort])
            exact absurd (Nat.lt_of_le_of_lt hturn hcounts) hfew

/-- **One request.**  What is taken stays fair unless the request takes an answer that is owed. -/
theorem Fair.next {before : List ρ} {used : List Nat} {r : ρ} (hone : B.OneOwner answers)
    (hfair : B.Fair answers before used) (hnew : B.key r ∉ before.map B.key)
    (hkept : ∀ j a k, B.pick answers used r = some j → answers[j]? = some a → B.owner a = some k →
      k = B.key r) :
    B.Fair answers (before ++ [r]) ((B.pick answers used r).toList ++ used) := by
  cases howned : B.owned answers (B.key r) with
  | true =>
      obtain ⟨a, hmem, ha⟩ := List.any_eq_true.mp howned
      obtain ⟨j, hj⟩ := List.mem_iff_getElem?.mp hmem
      rw [decide_eq_true_iff] at ha
      rw [hfair.pick_own hone hnew hj ha]
      refine ⟨fun {i b k} hi hk => ?_, fun {i b} hi hnone => ?_⟩
      · rw [Option.toList_some, List.singleton_append, List.mem_cons, hfair.owned hi hk, List.map_append,
          List.mem_append, List.map_singleton, List.mem_singleton, or_comm]
        refine or_congr_right ⟨fun hij => ?_, fun hkey => ?_⟩
        · obtain rfl := hij
          obtain rfl := Option.some.inj (hi.symm.trans hj)
          exact Option.some.inj (hk.symm.trans ha)
        · exact hone.index hi hj (hkey ▸ hk) ha
      · have hne : i ≠ j := fun hij => by
          subst hij
          obtain rfl := Option.some.inj (hi.symm.trans hj)
          rw [ha] at hnone
          cases hnone
        rw [Option.toList_some, List.singleton_append, List.mem_cons, hfair.spare hi hnone, waiting_snoc,
          if_neg (by simp [howned])]
        simp [hne]
  | false =>
      have hkeys : ∀ {i b k}, answers[i]? = some b → B.owner b = some k →
          (k ∈ before.map B.key ↔ k ∈ (before ++ [r]).map B.key) := fun {i b k} hi hk => by
        have hne : k ≠ B.key r := fun hkey => owned_eq_false howned hi (hkey ▸ hk)
        simp [hne]
      rw [pick_free howned]
      cases hfree : B.free answers used (B.kind r) with
      | none =>
          refine ⟨fun hi hk => (hfair.owned hi hk).trans (hkeys hi hk), fun {i b} hi hnone => ?_⟩
          rw [Option.toList_none, List.nil_append, hfair.spare hi hnone, waiting_snoc]
          refine ⟨fun hlt => Nat.lt_add_right _ hlt, fun hlt => ?_⟩
          by_cases hkind : B.kind r = B.sort b
          · exact (hfair.spare hi hnone).mp (free_eq_none hfree hi hkind.symm)
          · rwa [if_neg (fun h => hkind h.1), Nat.add_zero] at hlt
      | some c =>
          obtain ⟨b, hb, hbleft, hbsort, hbefore⟩ := free_eq_some hfree
          have hbnone : B.owner b = none := by
            cases howner : B.owner b with
            | none => rfl
            | some k =>
                have hkey := hkept c b k (by rw [pick_free howned, hfree]) hb howner
                exact absurd (hkey ▸ howner) (owned_eq_false howned hb)
          have hturn : B.spare answers (B.kind r) c = B.waiting answers (B.kind r) before := by
            refine Nat.le_antisymm (hfair.turn hbefore) (Nat.not_lt.mp fun hlt => hbleft ?_)
            rw [← hbsort] at hlt
            exact (hfair.spare hb hbnone).mpr hlt
          refine ⟨fun {i d k} hi hk => ?_, fun {i d} hi hnone => ?_⟩
          · have hne : i ≠ c := fun hic => by
              subst hic
              obtain rfl := Option.some.inj (hi.symm.trans hb)
              rw [hk] at hbnone
              cases hbnone
            rw [Option.toList_some, List.singleton_append, List.mem_cons, ← hkeys hi hk,
              ← hfair.owned hi hk]
            simp [hne]
          · rw [Option.toList_some, List.singleton_append, List.mem_cons, hfair.spare hi hnone, waiting_snoc]
            by_cases hkind : B.kind r = B.sort d
            · rw [if_pos ⟨hkind, howned⟩, ← hkind, ← hturn]
              have htest : ∀ {x : α}, B.owner x = none → B.sort x = B.kind r →
                  (decide (B.owner x = none) && decide (B.sort x = B.kind r)) = true :=
                fun h₁ h₂ => by simp [h₁, h₂]
              rcases Nat.lt_trichotomy i c with hlt | rfl | hgt
              · have hcounts : B.spare answers (B.kind r) i < B.spare answers (B.kind r) c :=
                  countP_take_lt hlt hi (htest hnone hkind.symm)
                omega
              · omega
              · have hcounts : B.spare answers (B.kind r) c < B.spare answers (B.kind r) i :=
                  countP_take_lt hgt hb (htest hbnone hbsort)
                omega
            · have hne : i ≠ c := fun hic => by
                subst hic
                obtain rfl := Option.some.inj (hi.symm.trans hb)
                exact hkind hbsort.symm
              rw [if_neg (fun h => hkind h.1), Nat.add_zero]
              simp [hne]

omit [DecidableEq κ] [DecidableEq τ] in
theorem onlyOwners_cons {r : ρ} {i : Option Nat} {bound : List (ρ × Option Nat)} :
    B.OnlyOwners answers ((r, i) :: bound) ↔
      (∀ j a k, i = some j → answers[j]? = some a → B.owner a = some k → k = B.key r) ∧
        B.OnlyOwners answers bound := by
  unfold OnlyOwners
  exact List.forall_mem_cons

theorem onlyOwners_bind_iff {before rs : List ρ} {used : List Nat} (hone : B.OneOwner answers)
    (hfair : B.Fair answers before used) (hkeys : ((before ++ rs).map B.key).Nodup) :
    B.OnlyOwners answers (B.bind answers used rs) ↔
      ∀ mid r after, rs = mid ++ r :: after → B.EnoughAt answers (before ++ mid) r := by
  induction rs generalizing before used with
  | nil =>
      refine ⟨fun _ mid r after h => ?_, fun _ b hb => ?_⟩
      · exact absurd h (by simp)
      · exact absurd hb (by simp [bind])
  | cons r rs ih =>
      have hnew : B.key r ∉ before.map B.key := by
        rw [List.map_append, List.map_cons, List.nodup_append] at hkeys
        exact fun hmem => hkeys.2.2 _ hmem _ List.mem_cons_self rfl
      have hrest : ((before ++ [r] ++ rs).map B.key).Nodup := by simpa using hkeys
      have hhead : (∀ j a k, B.pick answers used r = some j → answers[j]? = some a → B.owner a = some k →
          k = B.key r) ↔ B.EnoughAt answers before r := by
        cases howned : B.owned answers (B.key r) with
        | true =>
            refine ⟨fun _ hno => absurd hno (by simp [howned]), fun _ j a k hpick hj hk => ?_⟩
            obtain ⟨a', hmem, ha'⟩ := List.any_eq_true.mp howned
            obtain ⟨j', hj'⟩ := List.mem_iff_getElem?.mp hmem
            rw [decide_eq_true_iff] at ha'
            obtain rfl := Option.some.inj (hpick.symm.trans (hfair.pick_own hone hnew hj' ha'))
            obtain rfl := Option.some.inj (hj.symm.trans hj')
            exact Option.some.inj (hk.symm.trans ha')
        | false =>
            rw [← not_iff_not, ← hfair.astray_iff howned]
            constructor
            · intro hnot
              simp only [not_forall] at hnot
              obtain ⟨j, a, k, hpick, hj, hk, -⟩ := hnot
              exact ⟨j, a, k, hpick, hj, hk⟩
            · rintro ⟨j, a, k, hpick, hj, hk⟩ hall
              have hkey := hall j a k hpick hj hk
              exact owned_eq_false howned hj (hkey ▸ hk)
      have hsplit : B.OnlyOwners answers (B.bind answers used (r :: rs)) ↔
          (∀ j a k, B.pick answers used r = some j → answers[j]? = some a → B.owner a = some k →
            k = B.key r) ∧
          B.OnlyOwners answers (B.bind answers ((B.pick answers used r).toList ++ used) rs) :=
        onlyOwners_cons
      rw [hsplit]
      constructor
      · rintro ⟨hpick, htail⟩ mid r' after heq
        rcases List.cons_eq_append_iff.mp heq with ⟨rfl, hcons⟩ | ⟨mid, rfl, hmid⟩
        · obtain ⟨rfl, rfl⟩ := List.cons.inj hcons
          rw [List.append_nil]
          exact hhead.mp hpick
        · have hgo := (ih (hfair.next hone hnew hpick) hrest).mp htail mid r' after hmid
          rwa [List.append_assoc] at hgo
      · intro hall
        have hpick := hhead.mpr (by simpa using hall [] r rs rfl)
        refine ⟨hpick, (ih (hfair.next hone hnew hpick) hrest).mpr fun mid r' after hmid => ?_⟩
        have hgo := hall (r :: mid) r' after (by rw [hmid]; rfl)
        rwa [List.append_assoc]

/-- **No answer goes astray exactly when there are enough answers without an owner.** -/
theorem onlyOwners_iff {rs : List ρ} (hone : B.OneOwner answers) (hkeys : (rs.map B.key).Nodup) :
    B.OnlyOwners answers (B.bind answers [] rs) ↔ B.Enough answers rs :=
  onlyOwners_bind_iff hone fair_nil hkeys

theorem own_of_onlyOwners {before rs : List ρ} {used : List Nat} (hone : B.OneOwner answers)
    (hfair : B.Fair answers before used) (hkeys : ((before ++ rs).map B.key).Nodup)
    (honly : B.OnlyOwners answers (B.bind answers used rs)) {b : ρ × Option Nat}
    (hb : b ∈ B.bind answers used rs) {j : Nat} {a : α} (hj : answers[j]? = some a)
    (ha : B.owner a = some (B.key b.1)) : b.2 = some j := by
  induction rs generalizing before used with
  | nil => exact absurd hb (by simp [bind])
  | cons r rs ih =>
      have hnew : B.key r ∉ before.map B.key := by
        rw [List.map_append, List.map_cons, List.nodup_append] at hkeys
        exact fun hmem => hkeys.2.2 _ hmem _ List.mem_cons_self rfl
      rw [bind] at hb honly
      rcases List.mem_cons.mp hb with rfl | hb
      · exact hfair.pick_own hone hnew hj ha
      · obtain ⟨hpick, htail⟩ := onlyOwners_cons.mp honly
        exact ih (hfair.next hone hnew hpick) (by simpa using hkeys) htail hb

end Binding
end VariantOne
