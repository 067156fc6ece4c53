import VariantOne.WorkFabric.Growth

/-!
# Delivery of an item

What is done to an item of the outbox can be told from the calls and what they returned: it is claimed for
a consumer under an epoch, delivered, or rejected (`Delivery`).  In every run the actions of an item are
`Orderly`: the epochs of its claims are `1, 2, 3, …`, a settlement names the claim directly before it, a
rejection is final exactly when the item was claimed often enough, and nothing follows a delivery or a final
rejection.

The row of an item is told by its actions (`Tells`), which is the invariant the runs carry.
-/

namespace VariantOne
namespace WorkFabric

variable {H : Host} {env : Env} {t t' : Tables} {h : History}

/-! ## 1.  The actions of an item -/

/-- What can be done to an item. -/
inductive Delivery where
  | claim (consumer : String) (epoch : Nat)
  | deliver (consumer : String) (epoch : Nat)
  | reject (consumer : String) (epoch : Nat) (maxAttempts : Int) (dead : Bool)
  deriving DecidableEq

namespace Delivery

/-- A claim. -/
def isClaim : Delivery → Bool
  | claim .. => true
  | _ => false

/-- A delivery, or a rejection that gives the item up. -/
def isFinal : Delivery → Bool
  | claim .. => false
  | deliver .. => true
  | reject _ _ _ dead => dead

end Delivery

/-- How often an item was claimed. -/
def claims (ds : List Delivery) : Nat := ds.countP Delivery.isClaim

/-- Whether an action can come after others, newest first. -/
def Delivery.Follows (ds : List Delivery) : Delivery → Prop
  | .claim _ epoch => epoch = claims ds + 1 ∧ ∀ d ∈ ds, d.isFinal = false
  | .deliver consumer epoch => ds.head? = some (.claim consumer epoch)
  | .reject consumer epoch maxAttempts dead =>
      ds.head? = some (.claim consumer epoch) ∧ (dead = true ↔ max 1 maxAttempts ≤ claims ds)

/-- **The discipline of an item**, newest action first. -/
inductive Orderly : List Delivery → Prop
  | nil : Orderly []
  | cons {d : Delivery} {ds : List Delivery} (rest : Orderly ds) (follows : d.Follows ds) : Orderly (d :: ds)

/-- Only the newest action can be final. -/
theorem Orderly.not_final_of_mem {d : Delivery} {ds : List Delivery} (h : Orderly (d :: ds)) :
    ∀ e ∈ ds, e.isFinal = false := by
  induction ds generalizing d with
  | nil => simp
  | cons e ds ih =>
      cases h with
      | cons rest follows =>
          have hrest := ih rest
          have hhead : e.isFinal = false := by
            cases d with
            | claim consumer epoch => exact follows.2 e (by simp)
            | deliver consumer epoch =>
                rw [show e = .claim consumer epoch from Option.some.inj follows]
                rfl
            | reject consumer epoch maxAttempts dead =>
                rw [show e = .claim consumer epoch from Option.some.inj follows.1]
                rfl
          intro x hx
          rcases List.mem_cons.mp hx with rfl | hx
          · exact hhead
          · exact hrest x hx

/-- No action is final when the newest one is not. -/
theorem Orderly.not_final {ds : List Delivery} (h : Orderly ds) (hhead : ∀ d ∈ ds.head?, d.isFinal = false) :
    ∀ d ∈ ds, d.isFinal = false := by
  cases ds with
  | nil => simp
  | cons d ds =>
      intro x hx
      rcases List.mem_cons.mp hx with rfl | hx
      · exact hhead x rfl
      · exact h.not_final_of_mem x hx

/-! ## 2.  The actions of a run -/

/-- What a call that returned did to an item. -/
def deliveryAt (k : String) : Op → Outcome → Option Delivery
  | .claimOutbox .., .items items =>
      (items.find? fun i => i.outboxId = k).map fun i => .claim i.leaseOwner i.leaseEpoch
  | .acknowledgeOutbox outboxId consumer epoch _, .unit =>
      if outboxId = k then some (.deliver consumer epoch) else none
  | .rejectOutbox outboxId consumer epoch _ _ maxAttempts _, .settled status =>
      if outboxId = k then some (.reject consumer epoch maxAttempts (status == .dead)) else none
  | _, _ => none

/-- What one entry of a history did to an item. -/
def entryDelivery (k : String) (entry : Call × Except Raised Outcome) : Option Delivery :=
  match entry.2 with
  | .ok outcome => deliveryAt k entry.1.op outcome
  | .error _ => none

/-- What was done to an item, newest first. -/
def deliveries (k : String) (h : History) : List Delivery := h.filterMap (entryDelivery k)

theorem deliveries_ok (k : String) (call : Call) (outcome : Outcome) (h : History) :
    deliveries k ((call, .ok outcome) :: h) = (deliveryAt k call.op outcome).toList ++ deliveries k h := by
  have hentry : entryDelivery k (call, .ok outcome) = deliveryAt k call.op outcome := rfl
  rw [deliveries, List.filterMap_cons, hentry]
  cases deliveryAt k call.op outcome <;> rfl

/-! ## 3.  The row of an item -/

/-- What the status of a row tells of the newest action. -/
def OutboxRow.StatusAfter (o : OutboxRow) (newest : Option Delivery) : Prop :=
  match o.status with
  | .pending => ∀ d ∈ newest, d.isFinal = false
  | .leased => newest = some (.claim o.leaseOwner o.leaseEpoch)
  | .delivered => ∃ consumer epoch, newest = some (.deliver consumer epoch)
  | .dead => ∃ consumer epoch maxAttempts, newest = some (.reject consumer epoch maxAttempts true)

/-- **The row of an item is told by its actions.** -/
structure Tells (ds : List Delivery) (o : OutboxRow) : Prop where
  orderly : Orderly ds
  epoch : o.leaseEpoch = claims ds
  attempts : o.attempts = claims ds
  status : o.StatusAfter ds.head?

/-- Every item of the outbox is told by its actions, and nothing was done to another one. -/
def ToldBy (h : History) (t : Tables) : Prop :=
  ∀ k, match t.outbox.find? k with
    | some o => Tells (deliveries k h) o
    | none => deliveries k h = []

theorem Tells.fresh {o : OutboxRow} (h : o.Fresh) : Tells [] o := by
  obtain ⟨outboxId, event, now, rfl⟩ := h
  exact ⟨.nil, rfl, rfl, fun d hd => by cases hd⟩

theorem Tells.not_final {ds : List Delivery} {o : OutboxRow} (h : Tells ds o)
    (hopen : o.status = .pending ∨ o.status = .leased) : ∀ d ∈ ds, d.isFinal = false := by
  refine h.orderly.not_final ?_
  have hstatus := h.status
  unfold OutboxRow.StatusAfter at hstatus
  rcases hopen with hopen | hopen
  · rw [hopen] at hstatus
    exact hstatus
  · rw [hopen] at hstatus
    intro d hd
    rw [show ds.head? = some (.claim o.leaseOwner o.leaseEpoch) from hstatus] at hd
    rw [← Option.mem_some_iff.mp hd]
    rfl

/-- A lease that has run out. -/
theorem Tells.returned {ds : List Delivery} {o o' : OutboxRow} (h : Tells ds o) (hopen : o.status = .leased)
    (hepoch : o'.leaseEpoch = o.leaseEpoch) (hattempts : o'.attempts = o.attempts)
    (hstatus : o'.status = .pending) : Tells ds o' where
  orderly := h.orderly
  epoch := hepoch.trans h.epoch
  attempts := hattempts.trans h.attempts
  status := by
    unfold OutboxRow.StatusAfter
    rw [hstatus]
    exact fun d hd => h.not_final (Or.inr hopen) d (List.mem_of_mem_head? hd)

/-- A claim. -/
theorem Tells.claimed {ds : List Delivery} {o : OutboxRow} (h : Tells ds o) (hpending : o.status = .pending)
    (owner : String) (expires : ℚ) :
    Tells (.claim owner (o.leaseEpoch + 1) :: ds) (claimChange owner expires o) where
  orderly := .cons h.orderly ⟨by rw [h.epoch], h.not_final (Or.inl hpending)⟩
  epoch := by
    rw [claims, List.countP_cons_of_pos rfl]
    exact congrArg (· + 1) h.epoch
  attempts := by
    rw [claims, List.countP_cons_of_pos rfl]
    exact congrArg (· + 1) h.attempts
  status := rfl

theorem heldBy_eq {outboxId consumer : String} {epoch : Nat} {o : OutboxRow}
    (h : heldBy outboxId consumer epoch o = true) :
    o.outboxId = outboxId ∧ o.status = .leased ∧ o.leaseOwner = consumer ∧ o.leaseEpoch = epoch := by
  simp only [heldBy, Bool.and_eq_true, beq_iff_eq] at h
  exact ⟨h.1.1.1, h.1.1.2, h.1.2, h.2⟩

/-- A settlement names the newest claim. -/
theorem Tells.newest {ds : List Delivery} {o : OutboxRow} (h : Tells ds o) {outboxId consumer : String}
    {epoch : Nat} (hheld : heldBy outboxId consumer epoch o = true) :
    ds.head? = some (.claim consumer epoch) := by
  obtain ⟨-, hleased, rfl, rfl⟩ := heldBy_eq hheld
  have hstatus := h.status
  unfold OutboxRow.StatusAfter at hstatus
  rwa [hleased] at hstatus

theorem Tells.delivered {ds : List Delivery} {o : OutboxRow} (h : Tells ds o) {outboxId consumer : String}
    {epoch : Nat} (hheld : heldBy outboxId consumer epoch o = true) (now : ℚ) :
    Tells (.deliver consumer epoch :: ds) (deliverChange now o) where
  orderly := .cons h.orderly (h.newest hheld)
  epoch := h.epoch
  attempts := h.attempts
  status := ⟨consumer, epoch, rfl⟩

theorem Tells.rejected {ds : List Delivery} {o : OutboxRow} (h : Tells ds o) {outboxId consumer : String}
    {epoch : Nat} (hheld : heldBy outboxId consumer epoch o = true) (maxAttempts : Int) (available : ℚ)
    (error : String) :
    Tells (.reject consumer epoch maxAttempts (rejectDead maxAttempts o) :: ds)
      (rejectChange (rejectDead maxAttempts o) available error o) where
  orderly := .cons h.orderly ⟨h.newest hheld, by rw [rejectDead, decide_eq_true_eq, h.attempts]⟩
  epoch := h.epoch
  attempts := h.attempts
  status := by
    unfold OutboxRow.StatusAfter rejectChange
    cases rejectDead maxAttempts o with
    | true => exact ⟨consumer, epoch, maxAttempts, rfl⟩
    | false =>
        rintro d hd
        rw [← Option.mem_some_iff.mp hd]
        rfl

/-! ## 4.  Every call -/

theorem ToldBy.of_tables (hi : ToldBy h t) {call : Call} {outcome : Outcome}
    (hnone : ∀ k, deliveryAt k call.op outcome = none)
    (hitem : ∀ k, t'.outbox.find? k = t.outbox.find? k ∨
      (t.outbox.find? k = none ∧ ∃ o, t'.outbox.find? k = some o ∧ o.Fresh)) :
    ToldBy ((call, .ok outcome) :: h) t' := by
  intro k
  have hk := hi k
  rw [deliveries_ok, hnone k, Option.toList_none, List.nil_append]
  rcases hitem k with hsame | ⟨hold, o, hnew, hfresh⟩
  · rw [hsame]
    exact hk
  · rw [hold] at hk
    rw [hnew, show deliveries k h = [] from hk]
    exact .fresh hfresh

/-- Rows rewritten in place, each with what was done to it. -/
theorem ToldBy.of_mapped (hi : ToldBy h t) {f : OutboxRow → OutboxRow} (hmapped : OutboxMapped t t' f)
    {call : Call} {outcome : Outcome}
    (hrow : ∀ k o, t.outbox.find? k = some o → Tells (deliveries k h) o →
      Tells ((deliveryAt k call.op outcome).toList ++ deliveries k h) (f o))
    (hnone : ∀ k, t.outbox.find? k = none → deliveryAt k call.op outcome = none) :
    ToldBy ((call, .ok outcome) :: h) t' := by
  intro k
  have hk := hi k
  rw [deliveries_ok, hmapped.item? k]
  cases hold : t.outbox.find? k with
  | none =>
      rw [hold] at hk
      rw [hnone k hold, Option.toList_none, List.nil_append]
      exact hk
  | some o =>
      rw [hold] at hk
      exact hrow k o hold hk

theorem outboxItem_eq_some {o : OutboxRow} {i : OutboxItem} (h : outboxItem t o = some i) :
    i.outboxId = o.outboxId ∧ i.leaseOwner = o.leaseOwner ∧ i.leaseEpoch = o.leaseEpoch := by
  obtain ⟨event, -, rfl⟩ := Option.map_eq_some_iff.mp h
  exact ⟨rfl, rfl, rfl⟩

theorem LogAligned.outboxItem (ht : LogAligned t) {o : OutboxRow} (ho : o ∈ t.outbox.rows) :
    ∃ i, WorkFabric.outboxItem t o = some i := by
  have hmem : o.eventId ∈ t.events.rows.map (·.eventId) := by
    rw [← ht.eventIds]
    exact List.mem_map_of_mem (f := (·.eventId)) ho
  obtain ⟨e, he, hid⟩ := List.mem_map.mp hmem
  have hfind : t.events.find? o.eventId = some e := Table.find?_eq_some_iff.mpr ⟨he, hid⟩
  exact ⟨_, by rw [WorkFabric.outboxItem, hfind, Option.map_some]⟩

/-- The items a claim returns are those of the selected rows. -/
theorem find?_items (ht : LogAligned t) (ids : List String) (k : String) :
    (((bySequence (t.outbox.rows.filter fun r => ids.contains r.outboxId)).filterMap (outboxItem t)).find?
        fun i => decide (i.outboxId = k)).map (fun i => Delivery.claim i.leaseOwner i.leaseEpoch) =
      if k ∈ ids then (t.outbox.find? k).map fun o => .claim o.leaseOwner o.leaseEpoch else none := by
  have hitem : ∀ i ∈
      (bySequence (t.outbox.rows.filter fun r => ids.contains r.outboxId)).filterMap (outboxItem t),
      ∃ o ∈ t.outbox.rows, o.outboxId ∈ ids ∧ i.outboxId = o.outboxId ∧
        Delivery.claim i.leaseOwner i.leaseEpoch = .claim o.leaseOwner o.leaseEpoch := by
    intro i hi
    obtain ⟨o, ho, hoi⟩ := List.mem_filterMap.mp hi
    obtain ⟨hmem, hids⟩ := List.mem_filter.mp (mem_bySequence.mp ho)
    obtain ⟨hid, howner, hepoch⟩ := outboxItem_eq_some hoi
    exact ⟨o, hmem, List.contains_iff_mem.mp hids, hid, by rw [howner, hepoch]⟩
  cases hfind : List.find? (fun i => decide (i.outboxId = k))
      ((bySequence (t.outbox.rows.filter fun r => ids.contains r.outboxId)).filterMap (outboxItem t)) with
  | some i =>
      obtain ⟨o, ho, hids, hid, hclaim⟩ := hitem i (List.mem_of_find?_eq_some hfind)
      have hk : o.outboxId = k := hid.symm.trans (by simpa using List.find?_some hfind)
      have ho' : t.outbox.find? k = some o := Table.find?_eq_some_iff.mpr ⟨ho, hk⟩
      rw [if_pos (hk ▸ hids), ho', Option.map_some, Option.map_some, hclaim]
  | none =>
      rw [Option.map_none]
      split
      · next hk =>
        cases ho : t.outbox.find? k with
        | none => rfl
        | some o =>
            -- the row's event is in the log, so that the item is listed
            obtain ⟨hmem, hid⟩ := Table.find?_eq_some_iff.mp ho
            obtain ⟨i, hi⟩ := ht.outboxItem hmem
            have hlisted : o ∈ bySequence (t.outbox.rows.filter fun r => ids.contains r.outboxId) :=
              mem_bySequence.mpr (List.mem_filter.mpr ⟨hmem, List.contains_iff_mem.mpr (hid ▸ hk)⟩)
            have hnot := List.find?_eq_none.mp hfind i (List.mem_filterMap.mpr ⟨o, hlisted, hi⟩)
            exact absurd (decide_eq_true ((outboxItem_eq_some hi).1.trans hid)) hnot
      · rfl

/-- The claims of a call. -/
theorem ToldBy.claimed (hi : ToldBy h t) (ht' : LogAligned t') {owner : Text true 512} {limit limit' : Int}
    {expires now ttl : ℚ} {items : List OutboxItem} {consumer : String} {clock : Option ℚ}
    (hclaimed : Claimed t t' owner limit expires now items) :
    ToldBy ((⟨env, .claimOutbox consumer limit' ttl clock⟩, .ok (.items items)) :: h) t' := by
  obtain ⟨t₁, hreclaim, hpending, hclaim, rfl⟩ := hclaimed.between
  have hmapped := hreclaim.trans hclaim
  have hdelivery : ∀ k, deliveryAt k (.claimOutbox consumer limit' ttl clock)
      (.items ((bySequence (t'.outbox.rows.filter fun r =>
        (claimIds t₁ now limit).contains r.outboxId)).filterMap (outboxItem t'))) =
      if k ∈ claimIds t₁ now limit then (t'.outbox.find? k).map fun o => .claim o.leaseOwner o.leaseEpoch
      else none :=
    find?_items ht' _
  refine hi.of_mapped hmapped (fun k o ho hk => ?_) fun k hk => ?_
  · have hreclaimed : Tells (deliveries k h) (reclaimed now o) := by
      unfold reclaimed
      split
      · next hexpired =>
        have hleased : o.status = .leased := by
          simp only [outboxExpired, Bool.and_eq_true, beq_iff_eq] at hexpired
          exact hexpired.1
        exact hk.returned hleased rfl rfl rfl
      · exact hk
    have hid : (reclaimed now o).outboxId = k :=
      (hreclaim.keeps.outboxId o).trans (Table.key_of_find? ho)
    rw [hdelivery k, hmapped.item? k, ho]
    by_cases hin : k ∈ claimIds t₁ now limit
    · obtain ⟨row, hrow, hstatus⟩ := hpending k hin
      rw [hreclaim.item? k, ho, Option.map_some] at hrow
      rw [← Option.some.inj hrow] at hstatus
      have hchange : WorkFabric.claimed owner.val expires (claimIds t₁ now limit) (reclaimed now o) =
          claimChange owner.val expires (reclaimed now o) := by
        rw [WorkFabric.claimed, if_pos (hid.symm ▸ hin)]
      rw [if_pos hin, Option.map_some, Option.map_some, Function.comp_apply, hchange]
      exact hreclaimed.claimed hstatus owner.val expires
    · rw [if_neg hin, Option.toList_none, List.nil_append, Function.comp_apply, WorkFabric.claimed,
        if_neg (hid.symm ▸ hin)]
      exact hreclaimed
  · rw [hdelivery k, hmapped.item? k, hk, Option.map_none, Option.map_none, ite_self]

/-- A change of one item that is recorded for that item. -/
theorem ToldBy.onItem (hi : ToldBy h t) {outboxId : String} {row : OutboxRow}
    (hrow : t.outbox.find? outboxId = some row) {change : OutboxRow → OutboxRow}
    (hmapped : OutboxMapped t t' (onItem outboxId change)) {call : Call} {outcome : Outcome} {d : Delivery}
    (hdelivery : ∀ k, deliveryAt k call.op outcome = if outboxId = k then some d else none)
    (htells : Tells (deliveries outboxId h) row → Tells (d :: deliveries outboxId h) (change row)) :
    ToldBy ((call, .ok outcome) :: h) t' := by
  refine hi.of_mapped hmapped (fun k o ho hk => ?_) fun k hk => ?_
  · have hid : o.outboxId = k := Table.key_of_find? ho
    rw [hdelivery k, WorkFabric.onItem, hid]
    by_cases hkey : outboxId = k
    · subst hkey
      obtain rfl : row = o := Option.some.inj (hrow.symm.trans ho)
      rw [if_pos rfl, if_pos rfl]
      exact htells hk
    · rw [if_neg hkey, if_neg fun heq => hkey heq.symm]
      exact hk
  · have hne : outboxId ≠ k := by
      rintro rfl
      rw [hk] at hrow
      cases hrow
    rw [hdelivery k, if_neg hne]

/-- **Every call that returns keeps the rows told by their actions.** -/
theorem ToldBy.perform {op : Op} {outcome : Outcome} (hi : ToldBy h t) (ht' : LogAligned t')
    (hperform : (perform H env op).run t = .ok (outcome, t')) :
    ToldBy ((⟨env, op⟩, .ok outcome) :: h) t' := by
  cases hre : op.rewrites with
  | false =>
      have hnone : ∀ k, deliveryAt k op outcome = none := by
        intro k
        cases op <;> first | rfl | cases hre
      exact hi.of_tables hnone (grows_of_perform hre hperform).item?
  | true =>
      cases op with
      | claimOutbox consumer limit ttl now =>
          obtain ⟨items, hrun, rfl⟩ := Txn.run_map_eq_ok.mp hperform
          obtain ⟨owner, -, hclaimed⟩ := claimOutbox_eq_ok hrun
          exact hi.claimed ht' hclaimed
      | acknowledgeOutbox outboxId consumer epoch now =>
          obtain ⟨u, hrun, rfl⟩ := Txn.run_map_eq_ok.mp hperform
          obtain ⟨row, hrow, hheld, hmapped⟩ := acknowledgeOutbox_eq_ok hrun
          exact hi.onItem hrow hmapped (fun _ => rfl) fun hk => hk.delivered hheld _
      | rejectOutbox outboxId consumer epoch error delay maxAttempts now =>
          obtain ⟨status, hrun, rfl⟩ := Txn.run_map_eq_ok.mp hperform
          obtain ⟨row, clean, hrow, hheld, hmapped, rfl⟩ := rejectOutbox_eq_ok hrun
          have hdead : ((if rejectDead maxAttempts row then OutboxStatus.dead else .pending) == .dead) =
              rejectDead maxAttempts row := by
            cases rejectDead maxAttempts row <;> rfl
          refine hi.onItem hrow hmapped (fun k => ?_) fun hk => hk.rejected hheld maxAttempts _ _
          show (if outboxId = k then some (Delivery.reject consumer epoch maxAttempts _) else none) = _
          rw [hdead]
      | recoverExpiredOutbox now =>
          obtain ⟨n, hrun, rfl⟩ := Txn.run_map_eq_ok.mp hperform
          refine hi.of_mapped (recoverExpiredOutbox_eq_ok hrun) (fun k o ho hk => ?_) fun _ _ => rfl
          show Tells (deliveries k h) (recovered (now.getD env.time) o)
          unfold recovered
          split
          · next hexpired =>
            have hleased : o.status = .leased := by
              simp only [outboxExpired, Bool.and_eq_true, beq_iff_eq] at hexpired
              exact hexpired.1
            exact hk.returned hleased rfl rfl rfl
          · exact hk
      | reduceProjection name reducer initial batch =>
          obtain ⟨snapshot, hrun, rfl⟩ := Txn.run_map_eq_ok.mp hperform
          obtain ⟨clean, cursor, state, document, -, -, -, honly, -⟩ := reduceProjection_eq_ok hrun
          exact hi.of_tables (fun _ => rfl) fun k => Or.inl (by rw [honly.outbox])
      | _ => cases hre

theorem toldBy_of_run (hrun : (repository H).Run h t) : ToldBy h t := by
  refine (hrun.invariant (I := fun h t => LogAligned t ∧ ToldBy h t) ⟨.initial, fun _ => rfl⟩ ?_).2
  rintro h t call outcome t' - ⟨haligned, hi⟩ hstep
  have haligned' := haligned.effect (effect_of_step hstep)
  refine ⟨haligned', ?_⟩
  cases outcome with
  | error e =>
      rw [step_error hstep]
      exact hi
  | ok result => exact hi.perform haligned' (step_ok hstep)

/-- **Delivery is fenced and final**, in every run: every event of the log has one item, with the sequence of
the event, and the item's row is told by what the calls did to it, which is orderly. -/
theorem delivery_orderly (hrun : (repository H).Run h t) {e : WorkEvent} (he : e ∈ t.events.rows) :
    ∃ o, (t.outbox.rows.filter fun o => o.eventId = e.eventId) = [o] ∧ o.eventSequence = e.sequence ∧
      Tells (deliveries o.outboxId h) o ∧
      ((deliveries o.outboxId h).filter Delivery.isFinal).length ≤ 1 := by
  obtain ⟨o, hfilter, hsequence⟩ := (logAligned_of_run hrun).item he
  have hmem : o ∈ t.outbox.rows :=
    (List.mem_filter.mp (by rw [hfilter]; exact List.mem_singleton_self o)).1
  have htells := toldBy_of_run hrun o.outboxId
  rw [Table.find?_key_of_mem hmem] at htells
  refine ⟨o, hfilter, hsequence, htells, ?_⟩
  have horderly := htells.orderly
  cases hd : deliveries o.outboxId h with
  | nil => exact Nat.zero_le 1
  | cons d ds =>
      rw [hd] at horderly
      rw [List.filter_cons, List.filter_eq_nil_iff.mpr fun e he => by simp [horderly.not_final_of_mem e he]]
      split <;> simp

/-- The item of an event is claimed by `A`, whose lease runs out, and by `B`, who delivers it; `A` is late. -/
def redelivered : List (ℚ × Op) :=
  [(0, .createJob { kind := "k", ownerKind := "chat", ownerId := "o", jobId := "j", maxAttempts := 2 }),
    (0, .claimOutbox "A" 1 5 none), (10, .claimOutbox "B" 1 5 none),
    (11, .acknowledgeOutbox "out_00000000000000000000000000000001" "A" 1 none),
    (12, .acknowledgeOutbox "out_00000000000000000000000000000001" "B" 2 none)]

/-- What is seen of the late delivery: the one of `B` alone. -/
theorem delivery_orderly_redelivered :
    ∃ e ∈ (afterCalls redelivered).2.events.rows, ∃ o,
      ((afterCalls redelivered).2.outbox.rows.filter fun o => o.eventId = e.eventId) = [o] ∧
      deliveries o.outboxId (afterCalls redelivered).1 = [.deliver "B" 2, .claim "B" 2, .claim "A" 1] ∧
      Tells (deliveries o.outboxId (afterCalls redelivered).1) o := by
  have hseen : ((afterCalls redelivered).2.outbox.rows.map fun o =>
      deliveries o.outboxId (afterCalls redelivered).1) = [[.deliver "B" 2, .claim "B" 2, .claim "A" 1]] := by
    decide +kernel
  have hlogged : (afterCalls redelivered).2.events.rows ≠ [] := by decide +kernel
  obtain ⟨e, he⟩ := List.exists_mem_of_ne_nil _ hlogged
  obtain ⟨o, hfilter, -, htells, -⟩ := delivery_orderly (run_afterCalls redelivered) he
  have hmem : o ∈ (afterCalls redelivered).2.outbox.rows :=
    (List.mem_filter.mp (by rw [hfilter]; exact List.mem_singleton_self o)).1
  have hdeliveries :=
    List.mem_map_of_mem (f := fun o => deliveries o.outboxId (afterCalls redelivered).1) hmem
  rw [hseen, List.mem_singleton] at hdeliveries
  exact ⟨e, he, o, hfilter, hdeliveries, htells⟩

end WorkFabric
end VariantOne
