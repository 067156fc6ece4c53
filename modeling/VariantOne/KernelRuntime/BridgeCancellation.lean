import VariantOne.KernelRuntime.Bridge

/-!
# Cancellation on the kernel bridge

A cancellation that is answered `ok` reaches its target: either the target is
active and its event is set at once, or a tombstone waits for it, and only the
target itself or `forget_execution` removes the tombstone.  A cancellation that
does not come from the target's origin reaches nothing.

## The two tables

`_active` and the invocations agree (`Coherent`): a request id is in the table
exactly as long as the one invocation that carries it has not settled.  No
request id is active and awaited by a tombstone at the same time, which is why
looking into one table first decides the case.

## One tombstone, one invocation

The tombstone is taken by the first invocation it was left for.  A request id
that is sent again after its first invocation has settled is a new request, and
`resent_uncancelled` shows that the old cancellation does not reach it.

## Nothing else is cancelled

This has two halves, for an event is set in two places.  A step may set the
events of invocations that are there, and it sets those it is aimed at only
(`aims_of_step`).  And an invocation may be admitted with its event set; then a
tombstone of its own request id and origin was there, and every tombstone is a
cancellation of the history that still waits (`waits_of_run`, by induction on the
run: only the target's admission and `forget_execution` end the waiting, and both
remove the tombstone).

`bridge_cancellation` puts the parts together for every run.
-/

namespace VariantOne
namespace KernelRuntime

variable {H : Host} {c : BridgeConfig} {s s' : KernelBridgeServer} {l : BridgeStep} {r : Answer}

/-! ## 1.  What a step can do -/

/-- The tables stay and every invocation is rewritten in place, without losing
its identity or its cancellation. -/
structure Rewrites (s s' : KernelBridgeServer) (f : Nat → Invocation → Invocation) : Prop where
  active : s'.active = s.active
  pending : s'.pendingCancellations = s.pendingCancellations
  invocations : ∀ n, s'.invocations[n]? = (s.invocations[n]?).map (f n)
  requestId : ∀ n i, (f n i).requestId = i.requestId
  origin : ∀ n i, (f n i).origin = i.origin
  settled : ∀ n i, (f n i).settled = i.settled
  cancellation : ∀ n i, i.cancellation = true → (f n i).cancellation = true
  handling : ∀ n i, (f n i).handling = true → i.handling = true ∨ i.settled = false

/-- The answer neither admits an invocation nor acknowledges a cancellation. -/
def Answer.plain : Answer → Bool
  | .admitted _ | .cancelled .. => false
  | _ => true

/-- The invocation a request is admitted as. -/
def Invocation.ofRequest (request : BridgeRequest) (fingerprint : String) (cancellation : Bool) :
    Invocation where
  requestId := request.requestId
  executionId := request.executionId
  outerToolCallId := request.outerToolCallId
  fingerprint := fingerprint
  cancellation := cancellation
  handling := false
  settled := false

/-- What a step can do. -/
inductive Effect (c : BridgeConfig) (s : KernelBridgeServer) :
    BridgeStep → Answer → KernelBridgeServer → Prop
  | rewrite {l : BridgeStep} {r : Answer} {s' : KernelBridgeServer}
      (f : Nat → Invocation → Invocation) (hr : r.plain = true) (hs : Rewrites s s' f)
      (hl : ∀ request, l = .dispatch request → f = fun _ i => i) :
      Effect c s l r s'
  | cancelActive {request : BridgeRequest} {n : Nat} {i : Invocation}
      (hn : Dict.get? s.active request.targetRequestId = some n)
      (hi : s.invocations[n]? = some i) (ho : i.origin = request.origin) :
      Effect c s (.dispatch request)
        (.cancelled request.requestId request.targetRequestId true) (s.signal (· == n))
  | tombstone {request : BridgeRequest}
      (hactive : (Dict.get? s.active request.targetRequestId).bind
        (fun n => s.invocations[n]?) = none)
      (hprior : ∀ p ∈ Dict.get? s.pendingCancellations request.targetRequestId,
        p = request.origin)
      (hroom : Dict.get? s.pendingCancellations request.targetRequestId = none →
        s.pendingCancellations.length < c.cancellationCapacity) :
      Effect c s (.dispatch request)
        (.cancelled request.requestId request.targetRequestId false)
        { s with pendingCancellations :=
            Dict.restrict (· ≠ request.targetRequestId) s.pendingCancellations ++
              [(request.targetRequestId, request.origin)] }
  | admitted {request : BridgeRequest} {fingerprint : String}
      (hactive : (Dict.get? s.active request.requestId).bind
        (fun n => s.invocations[n]?) = none)
      (hpending : ∀ p ∈ Dict.get? s.pendingCancellations request.requestId,
        p = request.origin) :
      Effect c s (.dispatch request) (.admitted s.invocations.length)
        { s with
          pendingCancellations := Dict.restrict (· ≠ request.requestId) s.pendingCancellations
          invocations := s.invocations ++ [.ofRequest request fingerprint
            (Dict.get? s.pendingCancellations request.requestId == some request.origin ||
              s.closing)]
          active := Dict.set s.active request.requestId s.invocations.length }
  | complete {n : Nat} {i : Invocation} (hi : s.invocations[n]? = some i)
      (hs : i.settled = false) :
      Effect c s (.complete n) .done
        { s with
          invocations := s.invocations.modify n fun i =>
            { i with handling := false, settled := true }
          active := Dict.restrict (· ≠ i.requestId) s.active }
  | forget {executionId : String} :
      Effect c s (.forgetExecution executionId) .done (s.forgetExecution executionId)

theorem Rewrites.refl (s : KernelBridgeServer) : Rewrites s s fun _ i => i where
  active := rfl
  pending := rfl
  invocations := by simp
  requestId := by simp
  origin := by simp
  settled := by simp
  cancellation := by simp
  handling := fun _ _ h => Or.inl h

theorem Rewrites.signal (s : KernelBridgeServer) (p : Nat → Bool) :
    Rewrites s (s.signal p) fun n i => if p n then { i with cancellation := true } else i where
  active := rfl
  pending := rfl
  invocations := by
    intro n
    rw [KernelBridgeServer.signal, List.getElem?_mapIdx]
  requestId := by
    intro n i
    split <;> rfl
  origin := by
    intro n i
    split <;> rfl
  settled := by
    intro n i
    split <;> rfl
  cancellation := by
    intro n i h
    split
    · rfl
    · exact h
  handling := by
    intro n i h
    split at h <;> exact Or.inl h

theorem Rewrites.enter (c : BridgeConfig) (s : KernelBridgeServer) (n : Nat) :
    ∃ f, Rewrites s (s.enter c n) f := by
  unfold KernelBridgeServer.enter
  split
  · refine ⟨fun m i => if n = m ∧ i.settled = false then { i with handling := true } else i, ?_⟩
    constructor
    · rfl
    · rfl
    · intro m
      rw [List.getElem?_modify]
      cases s.invocations[m]? with
      | none => rfl
      | some i =>
          by_cases hm : n = m
          · cases hi : i.settled <;> simp [hm, hi]
          · simp [hm]
    · intro m i
      split <;> rfl
    · intro m i
      split <;> rfl
    · intro m i
      split <;> rfl
    · intro m i h
      split <;> exact h
    · intro m i h
      split at h
      · rename_i hmi
        exact Or.inr hmi.2
      · exact Or.inl h
  · exact ⟨_, .refl s⟩

theorem effect_of_cancelRequest {request : BridgeRequest}
    (h : s.cancelRequest c request = (r, s')) : Effect c s (.dispatch request) r s' := by
  have hstay : ∀ {a : Answer}, a.plain = true → (a, s) = (r, s') →
      Effect c s (.dispatch request) r s' := by
    intro a ha he
    obtain ⟨rfl, rfl⟩ := Prod.mk.inj he
    exact .rewrite _ ha (.refl s) fun _ _ => rfl
  unfold KernelBridgeServer.cancelRequest at h
  dsimp only at h
  split at h
  · exact hstay rfl h
  split at h
  · exact hstay rfl h
  split at h
  · rename_i n i hn
    obtain ⟨m, hm, hi⟩ := Option.bind_eq_some_iff.mp hn
    obtain ⟨j, hj, hjn⟩ := Option.map_eq_some_iff.mp hi
    obtain ⟨rfl, rfl⟩ := Prod.mk.inj hjn
    split at h
    · exact hstay rfl h
    · rename_i ho
      rw [not_or, not_ne_iff, not_ne_iff] at ho
      obtain ⟨rfl, rfl⟩ := Prod.mk.inj h
      exact .cancelActive hm hj (Prod.ext ho.1 ho.2)
  · rename_i hn
    split at h
    · exact hstay rfl h
    rename_i hprior
    split at h
    · exact hstay rfl h
    rename_i hroom
    obtain ⟨rfl, rfl⟩ := Prod.mk.inj h
    refine .tombstone ?_ ?_ ?_
    · simpa [Option.bind_eq_none_iff] using hn
    · intro p hp
      simpa [Option.mem_def.mp hp] using hprior
    · intro hnone
      rw [not_and, Nat.not_le] at hroom
      exact hroom hnone

theorem effect_of_admit {request : BridgeRequest} {fingerprint : String}
    (h : s.admitRequest request fingerprint = (r, s')) : Effect c s (.dispatch request) r s' := by
  have hstay : ∀ {a : Answer}, a.plain = true → (a, s) = (r, s') →
      Effect c s (.dispatch request) r s' := by
    intro a ha he
    obtain ⟨rfl, rfl⟩ := Prod.mk.inj he
    exact .rewrite _ ha (.refl s) fun _ _ => rfl
  unfold KernelBridgeServer.admitRequest at h
  dsimp only at h
  split at h
  · split at h
    · exact hstay rfl h
    · exact hstay rfl h
  · rename_i hn
    split at h
    · exact hstay rfl h
    · rename_i hpending
      obtain ⟨rfl, rfl⟩ := Prod.mk.inj h
      refine .admitted hn ?_
      intro p hp
      simpa [Option.mem_def.mp hp] using hpending

/-- **The inversion of a step.** -/
theorem effect_of_step (h : (bridge H c).step l s = (r, s')) : Effect c s l r s' := by
  cases l with
  | dispatch request =>
      have hstay : ∀ {a : Answer}, a.plain = true → (a, s) = (r, s') →
          Effect c s (.dispatch request) r s' := by
        intro a ha he
        obtain ⟨rfl, rfl⟩ := Prod.mk.inj he
        exact .rewrite _ ha (.refl s) fun _ _ => rfl
      change s.dispatch H c request = (r, s') at h
      unfold KernelBridgeServer.dispatch at h
      split at h
      · exact hstay rfl h
      split at h
      · exact hstay rfl h
      split at h
      · split at h
        · exact hstay rfl h
        · obtain ⟨rfl, rfl⟩ := Prod.mk.inj h
          exact .rewrite (fun _ i => i) rfl { Rewrites.refl s with } fun _ _ => rfl
      split at h
      · exact hstay rfl h
      split at h
      · exact hstay rfl h
      split at h
      · exact effect_of_cancelRequest h
      split at h
      · exact hstay rfl h
      · exact effect_of_admit h
  | enter n =>
      obtain ⟨rfl, rfl⟩ := Prod.mk.inj h
      obtain ⟨f, hf⟩ := Rewrites.enter c s n
      exact .rewrite f rfl hf nofun
  | complete n =>
      obtain ⟨rfl, rfl⟩ := Prod.mk.inj h
      unfold KernelBridgeServer.complete
      split
      · exact .rewrite _ rfl (.refl s) nofun
      · rename_i i hi
        split
        · exact .rewrite _ rfl (.refl s) nofun
        · rename_i hs
          exact .complete hi (by simpa using hs)
  | cancelExecution executionId =>
      obtain ⟨rfl, rfl⟩ := Prod.mk.inj h
      exact .rewrite _ rfl (.signal s _) nofun
  | forgetExecution executionId =>
      obtain ⟨rfl, rfl⟩ := Prod.mk.inj h
      exact .forget
  | abandon requestId =>
      obtain ⟨rfl, rfl⟩ := Prod.mk.inj h
      exact .rewrite _ rfl (.signal s _) nofun
  | close =>
      obtain ⟨rfl, rfl⟩ := Prod.mk.inj h
      exact .rewrite _ rfl { Rewrites.signal { s with closing := true } s.isActive with } nofun

/-! ## 2.  The tables and the invocations agree -/

/-- **Coherence.**  `_active` holds exactly the invocations that have not settled,
each under its own request id; no active request id has a tombstone; a handler
runs only before its dispatch has settled; the tombstones fit. -/
structure Coherent (c : BridgeConfig) (s : KernelBridgeServer) : Prop where
  registered : ∀ (k : String) (n : Nat), Dict.get? s.active k = some n →
    ∃ i, s.invocations[n]? = some i ∧ i.requestId = k ∧ i.settled = false
  unsettled : ∀ (n : Nat) (i : Invocation), s.invocations[n]? = some i →
    i.settled = false → Dict.get? s.active i.requestId = some n
  handling : ∀ (n : Nat) (i : Invocation), s.invocations[n]? = some i →
    i.handling = true → i.settled = false
  keyed : Dict.WF s.pendingCancellations
  disjoint : ∀ k, Dict.get? s.pendingCancellations k ≠ none → Dict.get? s.active k = none
  bounded : s.pendingCancellations.length ≤ c.cancellationCapacity

theorem Coherent.init : Coherent c .init where
  registered := by simp [KernelBridgeServer.init]
  unsettled := by simp [KernelBridgeServer.init]
  handling := by simp [KernelBridgeServer.init]
  keyed := List.nodup_nil
  disjoint := by simp [KernelBridgeServer.init]
  bounded := Nat.zero_le _

/-- A request id that finds no invocation is not active. -/
theorem Coherent.get?_active_eq_none (hs : Coherent c s) {k : String}
    (h : (Dict.get? s.active k).bind (fun n => s.invocations[n]?) = none) :
    Dict.get? s.active k = none := by
  cases hk : Dict.get? s.active k with
  | none => rfl
  | some n =>
      obtain ⟨i, hi, -, -⟩ := hs.registered k n hk
      rw [hk, Option.bind_some, hi] at h
      exact absurd h (by simp)

/-- Two invocations of one request that have not settled are the same. -/
theorem Coherent.unique (hs : Coherent c s) {n m : Nat} {i j : Invocation}
    (hi : s.invocations[n]? = some i) (hj : s.invocations[m]? = some j)
    (hi' : i.settled = false) (hj' : j.settled = false) (hk : i.requestId = j.requestId) :
    n = m := by
  have hn := hs.unsettled n i hi hi'
  rw [hk, hs.unsettled m j hj hj'] at hn
  exact (Option.some.inj hn).symm

theorem Coherent.rewrite {f : Nat → Invocation → Invocation} (hs : Coherent c s)
    (h : Rewrites s s' f) : Coherent c s' where
  registered := by
    intro k n hk
    rw [h.active] at hk
    obtain ⟨i, hi, hki, his⟩ := hs.registered k n hk
    exact ⟨f n i, by rw [h.invocations, hi]; rfl, by rw [h.requestId, hki], by rw [h.settled, his]⟩
  unsettled := by
    intro n i hi his
    rw [h.invocations] at hi
    obtain ⟨j, hj, rfl⟩ := Option.map_eq_some_iff.mp hi
    rw [h.settled] at his
    rw [h.active, h.requestId]
    exact hs.unsettled n j hj his
  handling := by
    intro n i hi hih
    rw [h.invocations] at hi
    obtain ⟨j, hj, rfl⟩ := Option.map_eq_some_iff.mp hi
    rw [h.settled]
    rcases h.handling n j hih with hjh | hjs
    · exact hs.handling n j hj hjh
    · exact hjs
  keyed := by
    rw [h.pending]
    exact hs.keyed
  disjoint := by
    intro k hk
    rw [h.pending] at hk
    rw [h.active]
    exact hs.disjoint k hk
  bounded := by
    rw [h.pending]
    exact hs.bounded

/-- Leaving a tombstone keeps one entry for each target. -/
theorem length_tombstone_le {d : List (String × (String × String))} {k : String} {bound : Nat}
    (hle : d.length ≤ bound) (hroom : Dict.get? d k = none → d.length < bound) :
    (Dict.restrict (· ≠ k) d).length + 1 ≤ bound := by
  cases hk : Dict.get? d k with
  | none =>
      have hfilter : (Dict.restrict (· ≠ k) d).length ≤ d.length := List.length_filter_le _ _
      have := hroom hk
      omega
  | some v =>
      have hlt : (Dict.restrict (· ≠ k) d).length < d.length := by
        refine List.length_filter_lt_length_iff_exists.mpr ⟨(k, v), Dict.mem_of_get? hk, ?_⟩
        simp
      omega

theorem get?_tombstone (d : List (String × (String × String))) (k k' : String)
    (origin : String × String) :
    Dict.get? (Dict.restrict (· ≠ k) d ++ [(k, origin)]) k' =
      if k' = k then some origin else Dict.get? d k' := by
  rw [Dict.get?_append, Dict.get?_restrict, Dict.get?_cons, Dict.get?_nil]
  by_cases hk : k' = k
  · simp [hk]
  · simp [hk, Ne.symm hk]

theorem getElem?_concat {α : Type} {xs : List α} {x y : α} {n : Nat}
    (h : (xs ++ [x])[n]? = some y) : xs[n]? = some y ∨ (n = xs.length ∧ y = x) := by
  rcases lt_trichotomy n xs.length with hlt | rfl | hgt
  · rw [List.getElem?_append_left hlt] at h
    exact Or.inl h
  · rw [List.getElem?_concat_length, Option.some.injEq] at h
    exact Or.inr ⟨rfl, h.symm⟩
  · rw [List.getElem?_eq_none (by simpa using Nat.succ_le_of_lt hgt)] at h
    exact absurd h (by simp)

/-- Every step keeps the tables coherent. -/
theorem Coherent.step (hs : Coherent c s) (h : Effect c s l r s') : Coherent c s' := by
  cases h with
  | rewrite f hr hf hl => exact hs.rewrite hf
  | cancelActive hn hi ho => exact hs.rewrite (.signal s _)
  | @tombstone request hactive hprior hroom =>
      refine ⟨hs.registered, hs.unsettled, hs.handling, ?_, ?_, ?_⟩
      · unfold Dict.WF
        rw [Dict.keys_append]
        refine List.Nodup.append (hs.keyed.restrict _) (by simp) ?_
        intro k hk hk'
        have hne := (Dict.mem_keys_restrict.mp hk).2
        simp [Dict.keys] at hk'
        simp [hk'] at hne
      · intro k hk
        rw [get?_tombstone] at hk
        by_cases hkt : k = request.targetRequestId
        · rw [hkt]
          exact hs.get?_active_eq_none hactive
        · rw [if_neg hkt] at hk
          exact hs.disjoint k hk
      · rw [List.length_append]
        exact length_tombstone_le hs.bounded hroom
  | @admitted request fingerprint hactive hpending =>
      have hnone := hs.get?_active_eq_none hactive
      refine ⟨?_, ?_, ?_, ?_, ?_, ?_⟩
      · intro k n hk
        by_cases hkr : request.requestId = k
        · subst hkr
          rw [Dict.get?_set_self, Option.some.injEq] at hk
          subst hk
          exact ⟨_, List.getElem?_concat_length, rfl, rfl⟩
        · rw [Dict.get?_set_of_ne hkr] at hk
          obtain ⟨i, hi, hki, his⟩ := hs.registered k n hk
          exact ⟨i, by rw [List.getElem?_append_left (List.getElem?_eq_some_iff.mp hi).1, hi],
            hki, his⟩
      · intro n i hi his
        rcases getElem?_concat hi with hi | ⟨rfl, rfl⟩
        · have hin := hs.unsettled n i hi his
          have hne : request.requestId ≠ i.requestId := by
            intro he
            rw [← he, hnone] at hin
            exact absurd hin (by simp)
          rw [Dict.get?_set_of_ne hne]
          exact hin
        · exact Dict.get?_set_self _ _ _
      · intro n i hi hih
        rcases getElem?_concat hi with hi | ⟨rfl, rfl⟩
        · exact hs.handling n i hi hih
        · rfl
      · dsimp only
        exact hs.keyed.restrict _
      · intro k hk
        rw [Dict.get?_restrict] at hk
        by_cases hkr : k = request.requestId
        · simp [hkr] at hk
        · rw [Dict.get?_set_of_ne (Ne.symm hkr)]
          refine hs.disjoint k ?_
          simpa [hkr] using hk
      · exact (List.length_filter_le _ _).trans hs.bounded
  | @complete n i hi his =>
      have hget : ∀ m j, (s.invocations.modify n fun i =>
          { i with handling := false, settled := true })[m]? = some j →
          j.settled = false ∨ j.handling = true → m ≠ n ∧ s.invocations[m]? = some j := by
        intro m j hj hopen
        rw [List.getElem?_modify] at hj
        by_cases hm : n = m
        · obtain ⟨k, -, rfl⟩ := Option.map_eq_some_iff.mp hj
          simp [hm] at hopen
        · obtain ⟨k, hk, rfl⟩ := Option.map_eq_some_iff.mp hj
          rw [if_neg hm]
          exact ⟨Ne.symm hm, hk⟩
      refine ⟨?_, ?_, ?_, hs.keyed, ?_, hs.bounded⟩
      · intro k m hk
        rw [Dict.get?_restrict] at hk
        by_cases hki : k = i.requestId
        · simp [hki] at hk
        · obtain ⟨j, hj, hkj, hjs⟩ := hs.registered k m (by simpa [hki] using hk)
          have hne : n ≠ m := by
            rintro rfl
            rw [hi, Option.some.injEq] at hj
            exact hki (by rw [← hkj, hj])
          exact ⟨j, by rw [List.getElem?_modify, hj]; simp [hne], hkj, hjs⟩
      · intro m j hj hjs
        obtain ⟨hne, hj⟩ := hget m j hj (Or.inl hjs)
        have hki : j.requestId ≠ i.requestId := fun hk => hne (hs.unique hj hi hjs his hk)
        rw [Dict.get?_restrict]
        simpa [hki] using hs.unsettled m j hj hjs
      · intro m j hj hjh
        obtain ⟨-, hj⟩ := hget m j hj (Or.inr hjh)
        exact hs.handling m j hj hjh
      · intro k hk
        rw [Dict.get?_restrict, hs.disjoint k hk]
        simp
  | @forget executionId =>
      have hsub : (s.forgetExecution executionId).pendingCancellations.Sublist
          s.pendingCancellations := List.filter_sublist
      refine ⟨hs.registered, hs.unsettled, hs.handling, hs.keyed.sublist hsub, ?_, ?_⟩
      · intro k hk
        refine hs.disjoint k ?_
        rw [Ne, Dict.get?_eq_none_iff, not_not] at hk ⊢
        exact (hsub.map Prod.fst).subset hk
      · exact hsub.length_le.trans hs.bounded

/-- **Every reachable server is coherent.** -/
theorem coherent_of_run {h : List (BridgeStep × Answer)} (hrun : (bridge H c).Run h s) :
    Coherent c s := by
  induction hrun with
  | start => exact .init
  | step _ hstep ih => exact ih.step (effect_of_step hstep)

/-! ## 3.  A tombstone waits -/

/-- The step admits an invocation of this request id. -/
def admits (k : String) : BridgeStep × Answer → Bool
  | (.dispatch request, .admitted _) => request.requestId == k
  | _ => false

/-- The step forgets this execution. -/
def forgets (executionId : String) : BridgeStep × Answer → Bool
  | (.forgetExecution e, _) => e == executionId
  | _ => false

/-- Only the target's admission and `forget_execution` remove a tombstone. -/
theorem tombstone_kept (hs : Coherent c s) (h : Effect c s l r s') {k : String}
    {origin : String × String} (hk : Dict.get? s.pendingCancellations k = some origin)
    (hadm : admits k (l, r) = false) (hforget : forgets origin.1 (l, r) = false) :
    Dict.get? s'.pendingCancellations k = some origin := by
  cases h with
  | rewrite f hr hf hl =>
      rw [hf.pending]
      exact hk
  | cancelActive hn hi ho => exact hk
  | @tombstone request hactive hprior hroom =>
      rw [get?_tombstone]
      by_cases hkt : k = request.targetRequestId
      · rw [if_pos hkt, hprior origin (hkt ▸ hk)]
      · rw [if_neg hkt]
        exact hk
  | @admitted request fingerprint hactive hpending =>
      have hne : k ≠ request.requestId := by
        rintro rfl
        simp [admits] at hadm
      rw [Dict.get?_restrict]
      simpa [hne] using hk
  | complete hi his => exact hk
  | @forget executionId =>
      have hne : origin.1 ≠ executionId := by
        rintro rfl
        simp [forgets] at hforget
      have hwf : Dict.WF (s.forgetExecution executionId).pendingCancellations :=
        hs.keyed.sublist List.filter_sublist
      rw [hwf.get?_eq_some_iff]
      exact List.mem_filter.mpr ⟨Dict.mem_of_get? hk, by simpa using hne⟩

/-- A tombstone waits through any steps that neither admit its target nor forget
its execution. -/
theorem tombstone_kept_of_extends {h later : List (BridgeStep × Answer)}
    {s₁ s₂ : KernelBridgeServer} (hs : Coherent c s₁) {k : String} {origin : String × String}
    (hk : Dict.get? s₁.pendingCancellations k = some origin)
    (hext : (bridge H c).Extends (fun _ _ _ => True) h s₁ later s₂)
    (hlater : ∀ e ∈ later, admits k e = false ∧ forgets origin.1 e = false) :
    Coherent c s₂ ∧ Dict.get? s₂.pendingCancellations k = some origin := by
  induction hext with
  | refl => exact ⟨hs, hk⟩
  | step _ _ hstep ih =>
      obtain ⟨hs₁, hk₁⟩ := ih fun e he => hlater e (List.mem_cons_of_mem _ he)
      have heffect := effect_of_step hstep
      obtain ⟨hadm, hforget⟩ := hlater _ List.mem_cons_self
      exact ⟨hs₁.step heffect, tombstone_kept hs₁ heffect hk₁ hadm hforget⟩

/-- A cancellation of a request id and an origin waits: it was answered `ok` when its target was not
active, and neither has its target been admitted nor its execution been forgotten since. -/
def Waits (h : List (BridgeStep × Answer)) (k : String) (origin : String × String) : Prop :=
  ∃ later request requestId earlier,
    h = later ++ (.dispatch request, .cancelled requestId k false) :: earlier ∧
      request.targetRequestId = k ∧ request.origin = origin ∧
        ∀ e ∈ later, admits k e = false ∧ forgets origin.1 e = false

theorem Waits.step {h : List (BridgeStep × Answer)} {k : String} {origin : String × String}
    (hwaits : Waits h k origin) {e : BridgeStep × Answer} (hadm : admits k e = false)
    (hforget : forgets origin.1 e = false) : Waits (e :: h) k origin := by
  obtain ⟨later, request, requestId, earlier, rfl, htarget, horigin, hlater⟩ := hwaits
  refine ⟨e :: later, request, requestId, earlier, rfl, htarget, horigin, fun e' he' => ?_⟩
  rcases List.mem_cons.mp he' with rfl | he'
  · exact ⟨hadm, hforget⟩
  · exact hlater e' he'

/-- After `forget_execution` no tombstone of the execution is left, and the others are as before. -/
theorem get?_forgetExecution (hs : Coherent c s) {executionId k : String} {origin : String × String}
    (hk : Dict.get? (s.forgetExecution executionId).pendingCancellations k = some origin) :
    Dict.get? s.pendingCancellations k = some origin ∧ origin.1 ≠ executionId := by
  obtain ⟨hmem, hne⟩ := List.mem_filter.mp (Dict.mem_of_get? hk)
  exact ⟨(hs.keyed.get?_eq_some_iff).mpr hmem, by simpa using hne⟩

/-- **Every tombstone is a cancellation that waits.** -/
theorem waits_of_run {h : List (BridgeStep × Answer)} (hrun : (bridge H c).Run h s) {k : String}
    {origin : String × String} (hk : Dict.get? s.pendingCancellations k = some origin) :
    Waits h k origin := by
  induction hrun generalizing k origin with
  | start => exact absurd hk (by simp [bridge, KernelBridgeServer.init])
  | @step h s s' l r hrun hstep ih =>
      have hs := coherent_of_run hrun
      by_cases hforget : forgets origin.1 (l, r) = true
      · cases l with
        | forgetExecution executionId =>
            obtain rfl : s.forgetExecution executionId = s' := congrArg Prod.snd hstep
            exact absurd (of_decide_eq_true hforget).symm (get?_forgetExecution hs hk).2
        | _ => exact absurd hforget (by simp [forgets])
      have hkept : forgets origin.1 (l, r) = false := Bool.eq_false_iff.mpr hforget
      cases effect_of_step hstep with
      | rewrite f hr hf hl =>
          rw [hf.pending] at hk
          refine (ih hk).step ?_ hkept
          cases r with
          | admitted n => exact absurd hr (by simp [Answer.plain])
          | _ => cases l <;> rfl
      | cancelActive hn hi ho => exact (ih hk).step rfl hkept
      | @tombstone request hactive hprior hroom =>
          rw [get?_tombstone] at hk
          split at hk
          · rename_i htarget
            subst htarget
            exact ⟨[], request, _, _, rfl, rfl, Option.some.inj hk, by simp⟩
          · exact (ih hk).step rfl hkept
      | @admitted request fingerprint hactive hpending =>
          rw [Dict.get?_restrict] at hk
          split at hk
          · rename_i hne
            refine (ih hk).step ?_ hkept
            simpa [admits] using Ne.symm (of_decide_eq_true hne)
          · exact absurd hk (by simp)
      | complete hi his => exact (ih hk).step rfl hkept
      | forget => exact (ih (get?_forgetExecution hs hk).1).step rfl hkept

/-! ## 4.  Cancellation reaches its target -/

/-- What holds of the state `s₁` in which a cancellation of the state `s`, made
after the history `h`, has been answered `ok`. -/
structure Reaches (H : Host) (c : BridgeConfig) (h : List (BridgeStep × Answer))
    (s : KernelBridgeServer) (request : BridgeRequest) (s₁ : KernelBridgeServer) : Prop where
  /-- Every active invocation of the target is the origin's and is cancelled. -/
  active : ∀ (n : Nat) (i : Invocation), s₁.invocations[n]? = some i → i.settled = false →
    i.requestId = request.targetRequestId → i.origin = request.origin ∧ i.cancellation = true
  /-- When none is, the next invocation of the target that is admitted, unless the
  execution is forgotten before, is the origin's and cancelled before its handler
  starts. -/
  awaited : (∀ (n : Nat) (i : Invocation), s.invocations[n]? = some i → i.settled = false →
      i.requestId ≠ request.targetRequestId) →
    ∀ (later : List (BridgeStep × Answer)) (s₂ s₃ : KernelBridgeServer) (next : BridgeRequest)
      (n : Nat),
      (bridge H c).Extends (fun _ _ _ => True) h s₁ later s₂ →
      (∀ e ∈ later, admits request.targetRequestId e = false ∧
        forgets request.executionId e = false) →
      next.requestId = request.targetRequestId →
      (bridge H c).step (.dispatch next) s₂ = (.admitted n, s₃) →
      next.origin = request.origin ∧ ∃ i, s₃.invocations[n]? = some i ∧
        i.origin = request.origin ∧ i.cancellation = true ∧ i.handling = false

theorem reaches_of_step {request : BridgeRequest} {requestId targetId : String} {active : Bool}
    {h : List (BridgeStep × Answer)} (hs : Coherent c s)
    (hstep : (bridge H c).step (.dispatch request) s =
      (.cancelled requestId targetId active, s')) :
    Reaches H c ((.dispatch request, .cancelled requestId targetId active) :: h) s request s' := by
  have heffect := effect_of_step hstep
  have hs' := hs.step heffect
  cases heffect with
  | rewrite f hr hf hl => exact absurd hr (by simp [Answer.plain])
  | @cancelActive _ m i hm hi ho =>
      obtain ⟨i', hi', hk, his⟩ := hs.registered _ _ hm
      obtain rfl : i = i' := Option.some.inj (hi.symm.trans hi')
      refine ⟨?_, fun hnone => absurd hk (hnone m i hi his)⟩
      intro n j hj hjs hjk
      rw [(Rewrites.signal s _).invocations] at hj
      obtain ⟨j₀, hj₀, rfl⟩ := Option.map_eq_some_iff.mp hj
      rw [(Rewrites.signal s _).settled] at hjs
      rw [(Rewrites.signal s _).requestId] at hjk
      obtain rfl : n = m := hs.unique hj₀ hi hjs his (hjk.trans hk.symm)
      obtain rfl : i = j₀ := Option.some.inj (hi.symm.trans hj₀)
      rw [(Rewrites.signal s _).origin]
      exact ⟨ho, by simp⟩
  | tombstone hactive hprior hroom =>
      have hnone := hs.get?_active_eq_none hactive
      constructor
      · intro n i hi his hik
        have hn := hs.unsettled n i hi his
        rw [hik, hnone] at hn
        exact absurd hn (by simp)
      · intro _ later s₂ s₃ next n hext hlater hnext hadmitted
        have hget := get?_tombstone s.pendingCancellations request.targetRequestId
          request.targetRequestId request.origin
        rw [if_pos rfl] at hget
        obtain ⟨hs₂, hk⟩ := tombstone_kept_of_extends hs' hget hext hlater
        cases effect_of_step hadmitted with
        | rewrite f hr hf hl => exact absurd hr (by simp [Answer.plain])
        | admitted hactive hpending =>
            rw [← hnext] at hk
            have horigin : next.origin = request.origin := (hpending _ hk).symm
            refine ⟨horigin, _, List.getElem?_concat_length, horigin, ?_, rfl⟩
            simp [Invocation.ofRequest, hk, horigin]

/-- The invocations, among those that were there before, whose events a step may set. -/
def BridgeStep.aims : BridgeStep → Invocation → Prop
  | .dispatch request, i => i.requestId = request.targetRequestId ∧ i.origin = request.origin
  | .cancelExecution executionId, i => i.executionId = executionId
  | .abandon requestId, i => i.requestId = requestId
  | .close, _ => True
  | .enter _, _ | .complete _, _ | .forgetExecution _, _ => False

/-- A signal sets the events of the invocations in `p`. -/
theorem signal_changes {p : Nat → Bool} {n : Nat} {i j : Invocation} (hi : s.invocations[n]? = some i)
    (hj : (s.signal p).invocations[n]? = some j) (hne : i.cancellation ≠ j.cancellation) : p n = true := by
  rw [(Rewrites.signal s p).invocations, hi] at hj
  obtain rfl := Option.some.inj hj
  by_contra hp
  exact hne (by simp [hp])

/-- A change of one invocation that leaves its event alone. -/
theorem modify_keeps {f : Invocation → Invocation} (hf : ∀ i, (f i).cancellation = i.cancellation)
    {invocations : List Invocation} {m n : Nat} {i j : Invocation} (hi : invocations[n]? = some i)
    (hj : (invocations.modify m f)[n]? = some j) : i.cancellation = j.cancellation := by
  rw [List.getElem?_modify, hi] at hj
  obtain rfl := Option.some.inj hj
  by_cases hm : m = n
  · simp [hm, hf]
  · simp [hm]

/-- **No step sets the event of an invocation it is not aimed at**, and a request least of all: its
cancellation is for one request id and one origin. -/
theorem aims_of_step (hs : Coherent c s) (hstep : (bridge H c).step l s = (r, s')) {n : Nat}
    {i j : Invocation} (hi : s.invocations[n]? = some i) (hj : s'.invocations[n]? = some j)
    (hne : i.cancellation ≠ j.cancellation) : l.aims i := by
  have hheld : ∀ {k : String}, Dict.get? s.active k = some n → i.requestId = k := by
    intro k hk
    obtain ⟨i', hi', hid, -⟩ := hs.registered k n hk
    rwa [Option.some.inj (hi.symm.trans hi')]
  cases l with
  | dispatch request =>
      cases effect_of_step hstep with
      | rewrite f hr hf hl =>
          rw [hf.invocations, hi, hl request rfl] at hj
          exact absurd (congrArg Invocation.cancellation (Option.some.inj hj)) hne
      | @cancelActive _ m i' hm hi' ho =>
          obtain rfl : n = m := of_decide_eq_true (signal_changes hi hj hne)
          exact ⟨hheld hm, Option.some.inj (hi'.symm.trans hi) ▸ ho⟩
      | tombstone hactive hprior hroom =>
          exact absurd (congrArg Invocation.cancellation (Option.some.inj (hi.symm.trans hj))) hne
      | admitted hactive hpending =>
          rw [List.getElem?_append_left (List.getElem?_eq_some_iff.mp hi).1] at hj
          exact absurd (congrArg Invocation.cancellation (Option.some.inj (hi.symm.trans hj))) hne
  | enter m =>
      obtain rfl : s.enter c m = s' := congrArg Prod.snd hstep
      unfold KernelBridgeServer.enter at hj
      split at hj
      · exact absurd (modify_keeps (fun i => by split <;> rfl) hi hj) hne
      · exact absurd (congrArg Invocation.cancellation (Option.some.inj (hi.symm.trans hj))) hne
  | complete m =>
      obtain rfl : s.complete m = s' := congrArg Prod.snd hstep
      unfold KernelBridgeServer.complete at hj
      split at hj
      · exact absurd (congrArg Invocation.cancellation (Option.some.inj (hi.symm.trans hj))) hne
      · split at hj
        · exact absurd (congrArg Invocation.cancellation (Option.some.inj (hi.symm.trans hj))) hne
        · refine absurd (modify_keeps ?_ hi hj) hne
          exact fun _ => rfl
  | cancelExecution executionId =>
      obtain rfl : s.cancelExecution executionId = s' := congrArg Prod.snd hstep
      have hp := signal_changes hi hj hne
      have hexecution : i.executionId = executionId := by
        simpa [hi] using (Bool.and_eq_true_iff.mp hp).2
      exact hexecution
  | forgetExecution executionId =>
      obtain rfl : s.forgetExecution executionId = s' := congrArg Prod.snd hstep
      exact absurd (congrArg Invocation.cancellation (Option.some.inj (hi.symm.trans hj))) hne
  | abandon requestId =>
      obtain rfl : s.abandon requestId = s' := congrArg Prod.snd hstep
      exact hheld (by simpa using signal_changes hi hj hne)
  | close => trivial

/-- An invocation that is new and cancelled had a tombstone. -/
theorem tombstone_of_admission (hstep : (bridge H c).step l s = (r, s')) {n : Nat} {i : Invocation}
    (hnone : s.invocations[n]? = none) (hi : s'.invocations[n]? = some i) (hset : i.cancellation = true)
    (hopen : s.closing = false) : Dict.get? s.pendingCancellations i.requestId = some i.origin := by
  cases effect_of_step hstep with
  | rewrite f hr hf hl =>
      rw [hf.invocations, hnone] at hi
      exact absurd hi (by simp)
  | @cancelActive _ m _ _ _ _ =>
      rw [(Rewrites.signal s _).invocations, hnone] at hi
      exact absurd hi (by simp)
  | tombstone hactive hprior hroom => exact absurd (hnone.symm.trans hi) (by simp)
  | @admitted request fingerprint hactive hpending =>
      rcases getElem?_concat hi with hold | ⟨-, rfl⟩
      · exact absurd (hnone.symm.trans hold) (by simp)
      · have heq : (Dict.get? s.pendingCancellations request.requestId == some request.origin) = true := by
          simpa [Invocation.ofRequest, hopen] using hset
        exact eq_of_beq heq
  | complete hm his =>
      rw [List.getElem?_modify, hnone] at hi
      exact absurd hi (by simp)
  | forget => exact absurd (hnone.symm.trans hi) (by simp)

/-- An event that is set stays set. -/
theorem cancellation_stays (h : Effect c s l r s') {n : Nat} {i : Invocation}
    (hi : s.invocations[n]? = some i) (hc : i.cancellation = true) :
    ∃ j : Invocation, s'.invocations[n]? = some j ∧ j.cancellation = true := by
  cases h with
  | rewrite f hr hf hl =>
      exact ⟨f n i, by rw [hf.invocations, hi]; rfl, hf.cancellation n i hc⟩
  | @cancelActive _ m _ _ _ _ =>
      have hf := Rewrites.signal s (· == m)
      exact ⟨_, by rw [hf.invocations, hi]; rfl, hf.cancellation n i hc⟩
  | tombstone hactive hprior hroom => exact ⟨i, hi, hc⟩
  | admitted hactive hpending =>
      exact ⟨i, by rw [List.getElem?_append_left (List.getElem?_eq_some_iff.mp hi).1, hi], hc⟩
  | @complete m _ _ _ =>
      refine ⟨_, by rw [List.getElem?_modify, hi]; rfl, ?_⟩
      by_cases hm : m = n
      · simpa [hm] using hc
      · simpa [hm] using hc
  | forget => exact ⟨i, hi, hc⟩

/-- What holds of every server a run ends in. -/
structure CancellationSafe (H : Host) (c : BridgeConfig) (h : List (BridgeStep × Answer))
    (s : KernelBridgeServer) : Prop where
  /-- A cancellation that is answered `ok` has cancelled the active invocation of its
  target, or cancels the next one. -/
  reaches : ∀ request requestId targetId active s',
    (bridge H c).step (.dispatch request) s = (.cancelled requestId targetId active, s') →
    Reaches H c ((.dispatch request, .cancelled requestId targetId active) :: h) s request s'
  /-- A step sets the events of the invocations it is aimed at only: a cancellation those of its target
  and its origin. -/
  directed : ∀ l r s' (n : Nat) (i j : Invocation), (bridge H c).step l s = (r, s') →
    s.invocations[n]? = some i → s'.invocations[n]? = some j → i.cancellation ≠ j.cancellation → l.aims i
  /-- Unless the server closes, an invocation is admitted with its event set only if a cancellation of
  its own request id and origin waits for it. -/
  earned : ∀ l r s' (n : Nat) (i : Invocation), (bridge H c).step l s = (r, s') →
    s.invocations[n]? = none → s'.invocations[n]? = some i → i.cancellation = true →
      s.closing = false → Waits h i.requestId i.origin
  /-- An event that is set stays set. -/
  stays : ∀ l r s' (n : Nat) (i : Invocation), (bridge H c).step l s = (r, s') →
    s.invocations[n]? = some i → i.cancellation = true →
    ∃ j : Invocation, s'.invocations[n]? = some j ∧ j.cancellation = true
  /-- At most one handler runs for each request id. -/
  exclusive : ∀ (n m : Nat) (i j : Invocation), s.invocations[n]? = some i →
    s.invocations[m]? = some j → i.handling = true → j.handling = true →
    i.requestId = j.requestId → n = m
  /-- The tombstones fit. -/
  bounded : s.pendingCancellations.length ≤ c.cancellationCapacity

/-- **Bridge cancellation.**  In every run, whatever the order of its steps,
cancellation is neither lost nor misdirected. -/
theorem bridge_cancellation {h : List (BridgeStep × Answer)} (hrun : (bridge H c).Run h s) :
    CancellationSafe H c h s := by
  have hs := coherent_of_run hrun
  constructor
  · intro request requestId targetId active s' hstep
    exact reaches_of_step hs hstep
  · intro l r s' n i j hstep hi hj hne
    exact aims_of_step hs hstep hi hj hne
  · intro l r s' n i hstep hnone hi hset hopen
    exact waits_of_run hrun (tombstone_of_admission hstep hnone hi hset hopen)
  · intro l r s' n i hstep hi hc
    exact cancellation_stays (effect_of_step hstep) hi hc
  · intro n m i j hi hj hih hjh hk
    exact hs.unique hi hj (hs.handling n i hi hih) (hs.handling m j hj hjh) hk
  · exact hs.bounded

/-! ## 5.  One run -/

/-- The first generation, with the constructor's defaults. -/
def firstGeneration : BridgeConfig := ⟨1, 2048, 8, false⟩

/-- A request of the tool call `o` of the execution `e`. -/
def requestOf (op requestId targetRequestId : String) : BridgeRequest where
  requestId := requestId
  generation := 1
  op := op
  handshake := bridgeHandshake
  executionId := "e"
  outerToolCallId := "o"
  targetRequestId := targetRequestId
  payload := []

/-- The bridge after a list of steps, with the history of these steps. -/
def afterSteps (steps : List BridgeStep) : List (BridgeStep × Answer) × KernelBridgeServer :=
  (bridge Host.plain firstGeneration).exec ([], .init) steps

theorem run_afterSteps (steps : List BridgeStep) :
    (bridge Host.plain firstGeneration).Run (afterSteps steps).1 (afterSteps steps).2 :=
  Machine.Run.exec .start _

/-- The handshake, and a cancellation that comes before its target. -/
def cancelFirst : List BridgeStep :=
  [.dispatch (requestOf "handshake" "h" ""), .dispatch (requestOf "cancel" "c" "t")]

/-- The cancellation waits, and what it waits for is cancelled. -/
theorem bridge_cancellation_first :
    CancellationSafe Host.plain firstGeneration (afterSteps cancelFirst).1
        (afterSteps cancelFirst).2 ∧
      (afterSteps cancelFirst).2.pendingCancellations = [("t", ("e", "o"))] ∧
      ((bridge Host.plain firstGeneration).step (.dispatch (requestOf "invoke" "t" ""))
        (afterSteps cancelFirst).2).2.invocations.map (·.cancellation) = [true] :=
  ⟨bridge_cancellation (run_afterSteps cancelFirst), by decide +kernel⟩

/-- The target arrives, is handled and settles. -/
def firstInvocation : List BridgeStep :=
  [.dispatch (requestOf "invoke" "t" ""), .enter 0, .complete 0]

/-- **A request id that is sent again is not cancelled.**  The cancellation was
answered `ok` and its execution was never forgotten; the first invocation takes the
tombstone, and the second one, of the same request id and origin, is admitted with
its event clear. -/
theorem resent_uncancelled :
    ∃ (h later : List (BridgeStep × Answer)) (s s₁ s₂ s₃ : KernelBridgeServer)
      (i : Invocation),
      (bridge Host.plain firstGeneration).Run h s ∧
      (bridge Host.plain firstGeneration).step (.dispatch (requestOf "cancel" "c" "t")) s =
        (.cancelled "c" "t" false, s₁) ∧
      (bridge Host.plain firstGeneration).Extends (fun _ _ _ => True)
        ((.dispatch (requestOf "cancel" "c" "t"), .cancelled "c" "t" false) :: h) s₁ later s₂ ∧
      (∀ e ∈ later, forgets "e" e = false) ∧
      (bridge Host.plain firstGeneration).step (.dispatch (requestOf "invoke" "t" "")) s₂ =
        (.admitted 1, s₃) ∧
      s₃.invocations[1]? = some i ∧ i.requestId = "t" ∧ i.origin = ("e", "o") ∧
      i.cancellation = false := by
  let M := bridge Host.plain firstGeneration
  let before := afterSteps [.dispatch (requestOf "handshake" "h" "")]
  let cancel := M.step (.dispatch (requestOf "cancel" "c" "t")) before.2
  let settled := M.exec ([], cancel.2) firstInvocation
  let again := M.step (.dispatch (requestOf "invoke" "t" "")) settled.2
  have hfacts : cancel.1 = .cancelled "c" "t" false ∧
      (∀ e ∈ settled.1, forgets "e" e = false) ∧ again.1 = .admitted 1 ∧
      again.2.invocations[1]?.map (fun i => (i.requestId, i.origin, i.cancellation)) =
        some ("t", ("e", "o"), false) := by
    decide +kernel
  obtain ⟨hcancel, hforgets, hagain, hclear⟩ := hfacts
  obtain ⟨i, hi, hfields⟩ := Option.map_eq_some_iff.mp hclear
  obtain ⟨hk, ho, hc⟩ : i.requestId = "t" ∧ i.origin = ("e", "o") ∧ i.cancellation = false := by
    simpa using hfields
  exact ⟨before.1, settled.1, before.2, cancel.2, settled.2, again.2, i, run_afterSteps _,
    Prod.ext hcancel rfl, .exec .refl _ fun _ _ _ _ => trivial, hforgets, Prod.ext hagain rfl,
    hi, hk, ho, hc⟩

end KernelRuntime
end VariantOne
