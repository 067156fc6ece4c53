import VariantOne.WorkFabric.Outbox

/-!
# What each outbox operation can do

Every operation of the outbox rewrites outbox rows in place and touches nothing
else: `OutboxMapped t t' f` says that `f` was applied to every row, where `f` keeps
a row's identifier, its event and its sequence.  An operation is then a function
on rows together with the guards it passed, and what holds of a row before and
after is told by `OutboxMapped.item?`.

One lemma for each operation names its function and its guards: who holds the item, under which epoch,
and until when.  `OutboxDelivery` reads its actions off these lemmas and never sees a statement.
-/

namespace VariantOne
namespace WorkFabric

variable {env : Env} {t t' t'' : Tables} {f g : OutboxRow → OutboxRow}

/-- A row rewritten in place. -/
structure KeepsItem (f : OutboxRow → OutboxRow) : Prop where
  outboxId : ∀ r, (f r).outboxId = r.outboxId
  eventId : ∀ r, (f r).eventId = r.eventId
  eventSequence : ∀ r, (f r).eventSequence = r.eventSequence

/-- Everything but the outbox is as it was. -/
structure OnlyOutbox (t t' : Tables) : Prop where
  events : t'.events = t.events
  eventSequence : t'.eventSequence = t.eventSequence
  jobs : t'.jobs = t.jobs
  projections : t'.projections = t.projections

/-- **The common shape of an outbox operation.** -/
structure OutboxMapped (t t' : Tables) (f : OutboxRow → OutboxRow) : Prop
    extends OnlyOutbox t t' where
  keeps : KeepsItem f
  rows : t'.outbox.rows = t.outbox.rows.map f

theorem KeepsItem.comp (hg : KeepsItem g) (hf : KeepsItem f) : KeepsItem (g ∘ f) where
  outboxId r := (hg.outboxId (f r)).trans (hf.outboxId r)
  eventId r := (hg.eventId (f r)).trans (hf.eventId r)
  eventSequence r := (hg.eventSequence (f r)).trans (hf.eventSequence r)

/-- A rewrite of some of the rows. -/
theorem KeepsItem.ite (hf : KeepsItem f) (c : OutboxRow → Prop) [DecidablePred c] :
    KeepsItem fun r => if c r then f r else r where
  outboxId r := by by_cases hc : c r <;> simp [hc, hf.outboxId]
  eventId r := by by_cases hc : c r <;> simp [hc, hf.eventId]
  eventSequence r := by by_cases hc : c r <;> simp [hc, hf.eventSequence]

theorem OutboxMapped.trans (h : OutboxMapped t t' f) (h' : OutboxMapped t' t'' g) :
    OutboxMapped t t'' (g ∘ f) where
  events := h'.events.trans h.events
  eventSequence := h'.eventSequence.trans h.eventSequence
  jobs := h'.jobs.trans h.jobs
  projections := h'.projections.trans h.projections
  keeps := h'.keeps.comp h.keeps
  rows := by rw [h'.rows, h.rows, List.map_map]

/-- What became of the row of an item. -/
theorem OutboxMapped.item? (h : OutboxMapped t t' f) (k : String) :
    t'.outbox.find? k = (t.outbox.find? k).map f := by
  unfold Table.find?
  rw [h.rows, List.find?_map]
  have hp : ((fun r : OutboxRow => decide (r.outboxId = k)) ∘ f) =
      fun r : OutboxRow => decide (r.outboxId = k) := by
    funext r
    rw [Function.comp_apply, h.keeps.outboxId]
  rw [hp]

/-- The same rows, described by another function. -/
theorem OutboxMapped.congr (h : OutboxMapped t t' f) (hg : KeepsItem g)
    (hrows : ∀ r ∈ t.outbox.rows, f r = g r) : OutboxMapped t t' g :=
  { h with keeps := hg, rows := h.rows.trans (List.map_congr_left hrows) }

theorem updateOutboxRows_eq_ok {cond : OutboxRow → Bool} {change : OutboxRow → OutboxRow}
    {hchange : ∀ r, (change r).outboxId = r.outboxId} {n : Nat} (hkeeps : KeepsItem change)
    (h : (updateOutboxRows cond change hchange).run t = .ok (n, t')) :
    n = (t.outbox.rows.filter cond).length ∧
      OutboxMapped t t' fun r => if cond r then change r else r := by
  rw [run_updateOutboxRows, Except.ok.injEq, Prod.mk.injEq] at h
  obtain ⟨rfl, rfl⟩ := h
  exact ⟨rfl, ⟨⟨rfl, rfl, rfl, rfl⟩, hkeeps.ite _, rfl⟩⟩

theorem keeps_reclaimChange (now : ℚ) : KeepsItem (reclaimChange now) :=
  ⟨fun _ => rfl, fun _ => rfl, fun _ => rfl⟩

theorem keeps_claimChange (owner : String) (expires : ℚ) : KeepsItem (claimChange owner expires) :=
  ⟨fun _ => rfl, fun _ => rfl, fun _ => rfl⟩

theorem keeps_deliverChange (now : ℚ) : KeepsItem (deliverChange now) :=
  ⟨fun _ => rfl, fun _ => rfl, fun _ => rfl⟩

theorem keeps_rejectChange (dead : Bool) (available : ℚ) (error : String) :
    KeepsItem (rejectChange dead available error) :=
  ⟨fun _ => rfl, fun _ => rfl, fun _ => rfl⟩

theorem keeps_recoverOutboxChange (now : ℚ) : KeepsItem (recoverOutboxChange now) :=
  ⟨fun _ => rfl, fun _ => rfl, fun _ => rfl⟩

/-! ## One item -/

/-- Rewrite the row of one item. -/
def onItem (outboxId : String) (change : OutboxRow → OutboxRow) (r : OutboxRow) : OutboxRow :=
  if r.outboxId = outboxId then change r else r

theorem KeepsItem.onItem (hf : KeepsItem f) (outboxId : String) :
    KeepsItem (onItem outboxId f) :=
  hf.ite _

/-- An update of at most one item that reported one row has hit that item. -/
theorem item_of_updated {outboxId : String} {cond : OutboxRow → Bool}
    {change : OutboxRow → OutboxRow} {hchange : ∀ r, (change r).outboxId = r.outboxId}
    (hkeeps : KeepsItem change) (hcond : ∀ r, cond r = true → r.outboxId = outboxId)
    (h : (updateOutboxRows cond change hchange).run t = .ok (1, t')) :
    ∃ row, t.outbox.find? outboxId = some row ∧ cond row = true ∧
      OutboxMapped t t' (onItem outboxId change) := by
  obtain ⟨hone, hmapped⟩ := updateOutboxRows_eq_ok hkeeps h
  obtain ⟨row, hfilter⟩ := List.length_eq_one_iff.mp hone.symm
  have hmem : row ∈ t.outbox.rows ∧ cond row = true :=
    List.mem_filter.mp (by rw [hfilter]; exact List.mem_singleton_self row)
  have hid : row.outboxId = outboxId := hcond row hmem.2
  refine ⟨row, Table.find?_eq_some_iff.mpr ⟨hmem.1, hid⟩, hmem.2,
    hmapped.congr (hkeeps.onItem outboxId) fun r hr => ?_⟩
  by_cases hr' : r.outboxId = outboxId
  · obtain rfl : r = row := Table.eq_of_mem hr hmem.1 (hr'.trans hid.symm)
    rw [onItem, if_pos hmem.2, if_pos hr']
  · rw [onItem, if_neg fun hc => hr' (hcond r hc), if_neg hr']

theorem outboxId_of_heldBy {outboxId consumerId : String} {epoch : Nat} {r : OutboxRow}
    (h : heldBy outboxId consumerId epoch r = true) : r.outboxId = outboxId := by
  simp only [heldBy, Bool.and_eq_true, beq_iff_eq] at h
  exact h.1.1.1

theorem acknowledgeOutbox_eq_ok {outboxId consumerId : String} {epoch : Nat} {now : Option ℚ}
    {u : Unit} (h : (acknowledgeOutbox env outboxId consumerId epoch now).run t = .ok (u, t')) :
    ∃ row, t.outbox.find? outboxId = some row ∧ heldBy outboxId consumerId epoch row = true ∧
      OutboxMapped t t' (onItem outboxId (deliverChange (now.getD env.time))) := by
  unfold acknowledgeOutbox at h
  obtain ⟨n, t₁, hupdate, h⟩ := Txn.run_bind_eq_ok.mp h
  obtain ⟨rfl, rfl⟩ := Txn.run_ensure_eq_ok.mp h
  exact item_of_updated (keeps_deliverChange _) (fun _ => outboxId_of_heldBy) hupdate

theorem rejectOutbox_eq_ok {outboxId consumerId error : String} {epoch : Nat} {delay : ℚ}
    {maxAttempts : Int} {now : Option ℚ} {status : OutboxStatus}
    (h : (rejectOutbox env outboxId consumerId epoch error delay maxAttempts now).run t =
      .ok (status, t')) :
    ∃ row clean, t.outbox.find? outboxId = some row ∧
      heldBy outboxId consumerId epoch row = true ∧
      OutboxMapped t t' (onItem outboxId (rejectChange (rejectDead maxAttempts row)
        (if rejectDead maxAttempts row then now.getD env.time
          else now.getD env.time + max 0 delay) clean)) ∧
      status = if rejectDead maxAttempts row then .dead else .pending := by
  unfold rejectOutbox at h
  rw [Txn.run_read_bind] at h
  cases hrow : t.outbox.find? outboxId with
  | none => simp [hrow] at h
  | some row =>
      rw [hrow] at h
      dsimp only at h
      obtain ⟨hheld, h⟩ := Txn.run_ensure_bind_eq_ok.mp h
      obtain ⟨clean, -, h⟩ := Txn.run_lift_bind_eq_ok.mp h
      obtain ⟨n, t₁, hupdate, h⟩ := Txn.run_bind_eq_ok.mp h
      obtain ⟨rfl, rfl⟩ := Txn.run_pure_eq_ok.mp h
      obtain ⟨-, hmapped⟩ := updateOutboxRows_eq_ok (keeps_rejectChange _ _ _) hupdate
      refine ⟨row, clean.val, rfl, hheld, ?_, rfl⟩
      refine hmapped.congr ((keeps_rejectChange _ _ _).onItem outboxId) fun r _ => ?_
      by_cases hr : r.outboxId = outboxId <;> simp [onItem, hr]

/-! ## Expired leases -/

/-- What the first statement of a claim makes of a row. -/
def reclaimed (now : ℚ) (r : OutboxRow) : OutboxRow :=
  if outboxExpired now r then reclaimChange now r else r

/-- What recovery makes of a row. -/
def recovered (now : ℚ) (r : OutboxRow) : OutboxRow :=
  if outboxExpired now r then recoverOutboxChange now r else r

theorem recoverExpiredOutbox_eq_ok {now : Option ℚ} {n : Nat}
    (h : (recoverExpiredOutbox env now).run t = .ok (n, t')) :
    OutboxMapped t t' (recovered (now.getD env.time)) :=
  (updateOutboxRows_eq_ok (keeps_recoverOutboxChange _) h).2

/-! ## Claims -/

/-- What a claim of the given identifiers makes of a row. -/
def claimed (owner : String) (expires : ℚ) (ids : List String) (r : OutboxRow) : OutboxRow :=
  if r.outboxId ∈ ids then claimChange owner expires r else r

theorem claimItems_eq_ok {owner : String} {expires : ℚ} {ids : List String} {u : Unit}
    (hnodup : ids.Nodup) (h : (claimItems owner expires ids).run t = .ok (u, t')) :
    (∀ id ∈ ids, ∃ row, t.outbox.find? id = some row ∧ row.status = .pending) ∧
      OutboxMapped t t' (claimed owner expires ids) := by
  induction ids generalizing t with
  | nil =>
      obtain ⟨-, rfl⟩ := Txn.run_pure_eq_ok.mp h
      have hid : claimed owner expires [] = id := by
        funext r
        rw [claimed, if_neg (by simp), id_eq]
      refine ⟨by simp, ⟨rfl, rfl, rfl, rfl⟩, (keeps_claimChange owner expires).ite _, ?_⟩
      rw [hid, List.map_id]
  | cons id ids ih =>
      rw [List.nodup_cons] at hnodup
      unfold claimItems at h
      obtain ⟨n, t₁, hupdate, h⟩ := Txn.run_bind_eq_ok.mp h
      obtain ⟨rfl, hrun⟩ := Txn.run_ensure_bind_eq_ok.mp h
      have hcond : ∀ r : OutboxRow, (r.outboxId == id && r.status == .pending) = true →
          r.outboxId = id := fun r hr => by simpa using (Bool.and_eq_true_iff.mp hr).1
      obtain ⟨row, hrow, hpending, hone⟩ :=
        item_of_updated (keeps_claimChange owner expires) hcond hupdate
      obtain ⟨hrest, hmapped⟩ := ih hnodup.2 hrun
      have hstatus : row.status = .pending := by simpa using (Bool.and_eq_true_iff.mp hpending).2
      refine ⟨?_, (hone.trans hmapped).congr ((keeps_claimChange owner expires).ite _)
        fun r _ => ?_⟩
      · intro k hk
        rcases List.mem_cons.mp hk with rfl | hk
        · exact ⟨row, hrow, hstatus⟩
        · obtain ⟨row', hrow', hp⟩ := hrest k hk
          have hne : k ≠ id := fun hkid => hnodup.1 (hkid ▸ hk)
          obtain ⟨r, hr, rfl⟩ := Option.map_eq_some_iff.mp ((hone.item? k).symm.trans hrow')
          have hrk : r.outboxId ≠ id := by
            rw [Table.key_of_find? hr]
            exact hne
          rw [onItem, if_neg hrk] at hp
          exact ⟨r, hr, hp⟩
      · -- an identifier occurs once, so its row is claimed at its own turn only
        by_cases hr : r.outboxId = id
        · have hnot : r.outboxId ∉ ids := hr ▸ hnodup.1
          have hafter : (claimChange owner expires r).outboxId ∉ ids := hnot
          simp [claimed, onItem, hr, hnodup.1, hafter]
        · simp [claimed, onItem, hr]

theorem bySequence_perm (rows : List OutboxRow) : (bySequence rows).Perm rows :=
  List.perm_insertionSort _ rows

theorem mem_bySequence {rows : List OutboxRow} {r : OutboxRow} :
    r ∈ bySequence rows ↔ r ∈ rows :=
  (bySequence_perm rows).mem_iff

theorem claimIds_nodup (t : Tables) (now : ℚ) (limit : Int) : (claimIds t now limit).Nodup := by
  have hsorted : ((bySequence (t.outbox.rows.filter (claimable now))).map (·.outboxId)).Nodup :=
    ((bySequence_perm _).map _).nodup_iff.mpr
      (List.Nodup.sublist (List.filter_sublist.map _) t.outbox.unique)
  exact hsorted.sublist ((List.take_sublist _ _).map _)

/-- Everything a claim does, told by the state after its first statement. -/
structure Claimed (t t' : Tables) (owner : Text true 512) (limit : Int) (expires now : ℚ)
    (items : List OutboxItem) : Prop where
  between : ∃ t₁, OutboxMapped t t₁ (reclaimed now) ∧
    (∀ id ∈ claimIds t₁ now limit, ∃ row, t₁.outbox.find? id = some row ∧
      row.status = .pending) ∧
    OutboxMapped t₁ t' (claimed owner.val expires (claimIds t₁ now limit)) ∧
    items = (bySequence (t'.outbox.rows.filter fun r =>
      (claimIds t₁ now limit).contains r.outboxId)).filterMap (outboxItem t')

theorem claimOutbox_eq_ok {consumerId : String} {limit : Int} {ttl : ℚ} {now : Option ℚ}
    {items : List OutboxItem}
    (h : (claimOutbox env consumerId limit ttl now).run t = .ok (items, t')) :
    ∃ owner, text consumerId "consumer_id" true 512 = .ok owner ∧
      Claimed t t' owner limit (now.getD env.time + max 1 ttl) (now.getD env.time) items := by
  unfold claimOutbox at h
  obtain ⟨owner, howner, h⟩ := Txn.run_lift_bind_eq_ok.mp h
  obtain ⟨n, t₁, hreclaim, h⟩ := Txn.run_bind_eq_ok.mp h
  rw [Txn.run_read_bind] at h
  obtain ⟨u, t₂, hclaim, h⟩ := Txn.run_bind_eq_ok.mp h
  rw [Txn.run_read_bind] at h
  obtain ⟨rfl, rfl⟩ := Txn.run_pure_eq_ok.mp h
  obtain ⟨hpending, hmapped⟩ := claimItems_eq_ok (claimIds_nodup t₁ _ limit) hclaim
  exact ⟨owner, howner, t₁, (updateOutboxRows_eq_ok (keeps_reclaimChange _) hreclaim).2,
    hpending, hmapped, rfl⟩

theorem Claimed.onlyOutbox {owner : Text true 512} {limit : Int} {expires now : ℚ}
    {items : List OutboxItem} (h : Claimed t t' owner limit expires now items) :
    OnlyOutbox t t' := by
  obtain ⟨t₁, hreclaim, -, hclaim, -⟩ := h.between
  exact (hreclaim.trans hclaim).toOnlyOutbox

end WorkFabric
end VariantOne
