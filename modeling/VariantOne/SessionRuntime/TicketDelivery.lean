import Mathlib.Data.List.Perm.Basic
import VariantOne.SessionRuntime.Tickets

/-!
# Delivery of input tickets

What any transaction can do to one ticket is an `Edge` between two states.  From
this the counts follow: a ticket is selected once for each time it is queued, and
handed to the model at most once for each time it is selected.

The handover itself is another matter.  `claim_input` returns the row whether its
second transaction has moved it or not.  Only a transaction that finds the ticket still
selected hands over what it claimed (`Steady`): one that finds it cancelled or parked hands
over a ticket that was taken back, and one that finds it prepared by a continue hands over
a ticket that the continue delivers itself.

`claimInput_delivery` is the result for every run whose handovers are steady, and
`cancelled_handed` a run with one that is not.  The counts go through `claimable_step`, the
only step that needs the edges one by one; what stays undelivered is `not_handed_of_extends`.
-/

namespace VariantOne
namespace SessionRuntime

/-! ## 1.  What a transaction does to one ticket -/

/-- The states from which a ticket can be on its way to the model. -/
def offered (s : TicketState) : Bool := s == .queued || s == .selected || s == .preparing

/-- What the listing functions decide on. -/
structure PendingMove.Valid (m : PendingMove) : Prop where
  listed : ∃ s, m.expected = [s] ∧ s.terminal = false
  target : m.target ≠ .selected ∧ m.target ≠ .preparing

/-- `Edge id reply s s'`: a transaction with this reply moves the ticket `id` from `s`
to `s'`. -/
inductive Edge (id : String) : QueueReply → TicketState → TicketState → Prop
  | select (t : InputTicket) : t.ticketId = id → Edge id (.claimed t) .queued .selected
  | prepare (t : InputTicket) : t.ticketId = id → Edge id (.handed t) .selected .preparing
  | park (ts : List InputTicket) {s : TicketState} : s ∈ parkable → Edge id (.parked ts) s .parked
  | resume (t : InputTicket) : t.ticketId = id →
      Edge id (.commanded "continue" t) .parked .preparing
  | remove (t : InputTicket) {s : TicketState} : s ∈ [.queued, .resumeQueued, .parked] →
      Edge id (.commanded "remove" t) s .cancelled
  | move (m : PendingMove) (row : InputTicket) : m.Valid → m.ticketId = id →
      row.state ∈ m.expected → Edge id (.moved m (some row)) row.state m.target
  | record {s s' : TicketState} : s.terminal = false → offered s' = false →
      Edge id (.recorded s') s s'

/-- The moves under way are well-formed. -/
def Queue.Valid (q : Queue) : Prop := ∀ m ∈ q.pending, m.Valid

namespace Queue

@[simp] theorem ticket?_bump (q : Queue) (chatId : String) (n : Nat) (id : String) :
    (q.bump chatId n).ticket? id = q.ticket? id := rfl

@[simp] theorem claiming_update (q : Queue) (row : InputTicket) (f : InputTicket → InputTicket)
    (hf : ∀ r, (f r).ticketId = r.ticketId) : (q.update row f hf).claiming = q.claiming := rfl

@[simp] theorem pending_update (q : Queue) (row : InputTicket) (f : InputTicket → InputTicket)
    (hf : ∀ r, (f r).ticketId = r.ticketId) : (q.update row f hf).pending = q.pending := rfl

theorem ticketId_of_ticket? {q : Queue} {id : String} {row : InputTicket}
    (h : q.ticket? id = some row) : row.ticketId = id := Table.key_of_find? h

/-- An update changes the row it is about. -/
theorem ticket?_update {q : Queue} {row : InputTicket} {f : InputTicket → InputTicket}
    {hf : ∀ r, (f r).ticketId = r.ticketId} {tid : String} (h : q.ticket? tid = some row)
    (id : String) :
    (q.update row f hf).ticket? id = if tid = id then some (f row) else q.ticket? id := by
  have hkey := ticketId_of_ticket? h
  unfold update
  rw [ticket?_bump]
  unfold ticket?
  rw [Table.find?_updateWhere]
  by_cases hid : tid = id
  · subst hid
    rw [show q.tickets.find? tid = some row from h]
    simp [hkey]
  · rw [if_neg hid]
    cases hrow : q.tickets.find? id with
    | none => rfl
    | some r =>
        have hr := Table.key_of_find? hrow
        have hne : r.ticketId ≠ row.ticketId := fun heq => hid (hkey.symm.trans (heq.symm.trans hr))
        simp [hne]

end Queue

/-- What a transaction does to the row of one ticket. -/
inductive Touched (id : String) (reply : QueueReply) : Option InputTicket → Option InputTicket → Prop
  | same {r : Option InputTicket} : Touched id reply r r
  | created {r : InputTicket} : reply = .created r → r.state = .queued →
      Touched id reply none (some r)
  | moved {r r' : InputTicket} : Edge id reply r.state r'.state → Touched id reply (some r) (some r')

/-- An update of one row along an edge. -/
theorem touched_update {q : Queue} {row : InputTicket} {f : InputTicket → InputTicket}
    (hf : ∀ r, (f r).ticketId = r.ticketId) {tid : String} {reply : QueueReply}
    (h : q.ticket? tid = some row) (hedge : Edge tid reply row.state (f row).state) (id : String) :
    Touched id reply (q.ticket? id) ((q.update row f hf).ticket? id) := by
  rw [Queue.ticket?_update h]
  by_cases hid : tid = id
  · subst hid
    rw [if_pos rfl, h]
    exact .moved hedge
  · rw [if_neg hid]
    exact .same

/-- A transition moves the row it finds in an expected state. -/
theorem touched_transitionTicket {q : Queue} {tid : String} {state : TicketState}
    {expected : List TicketState} {proof : Option PyDict} {error : String} {now : ℚ}
    {reply : QueueReply} (hexpected : expected ≠ [])
    (hedge : ∀ row, q.ticket? tid = some row → row.state ∈ expected →
      Edge tid reply row.state state) (id : String) :
    Touched id reply (q.ticket? id)
      ((transitionTicket tid state expected proof error now q).2.ticket? id) := by
  unfold transitionTicket
  split
  · exact .same
  · rename_i row hrow
    split
    · exact .same
    · rename_i hstate
      have hmem : row.state ∈ expected := by
        by_contra hnot
        exact hstate ⟨hexpected, hnot⟩
      exact touched_update _ hrow (hedge row hrow hmem) id

@[simp] theorem claiming_transitionTicket (tid : String) (state : TicketState)
    (expected : List TicketState) (proof : Option PyDict) (error : String) (now : ℚ) (q : Queue) :
    (transitionTicket tid state expected proof error now q).2.claiming = q.claiming := by
  unfold transitionTicket
  split
  · rfl
  · split <;> rfl

@[simp] theorem pending_transitionTicket (tid : String) (state : TicketState)
    (expected : List TicketState) (proof : Option PyDict) (error : String) (now : ℚ) (q : Queue) :
    (transitionTicket tid state expected proof error now q).2.pending = q.pending := by
  unfold transitionTicket
  split
  · rfl
  · split <;> rfl

theorem touched_insertTicket {lifecycle : Option Lifecycle} {row t : InputTicket} {q q' : Queue}
    (hrow : row.state = .queued) (h : insertTicket lifecycle row q = .ok (t, q')) (id : String) :
    Touched id (.created t) (q.ticket? id) (q'.ticket? id) := by
  unfold insertTicket at h
  split at h
  · exact absurd h (by simp)
  split at h
  · split at h
    · obtain ⟨rfl, rfl⟩ := Prod.mk.inj (Except.ok.inj h)
      exact .same
    · exact absurd h (by simp)
  · rename_i hnone
    split at h
    · rename_i tickets hinsert
      obtain ⟨rfl, rfl⟩ := Prod.mk.inj (Except.ok.inj h)
      obtain ⟨-, hrows⟩ := Table.insert?_eq_some hinsert
      have hfind : tickets.find? id = if row.ticketId = id then some row else q.ticket? id :=
        Table.find?_of_rows_append hrows id
      rw [Queue.ticket?_bump]
      show Touched id _ _ (tickets.find? id)
      rw [hfind]
      by_cases hid : row.ticketId = id
      · subst hid
        rw [if_pos rfl, hnone]
        exact .created rfl hrow
      · rw [if_neg hid]
        exact .same
    · exact absurd h (by simp)

/-- An input that is accepted is created by `create_ticket`. -/
theorem createTicket_eq_ok {lifecycle : Option Lifecycle}
    {chatId text delivery clientId source attachmentId ticketId uuid : String} {now : ℚ}
    {q q' : Queue} {t : InputTicket} (h : createTicket lifecycle chatId text delivery clientId
      source attachmentId ticketId uuid now q = .ok (t, q')) :
    ∃ row : InputTicket, row.state = .queued ∧ insertTicket lifecycle row q = .ok (t, q') := by
  unfold createTicket at h
  split at h
  · exact absurd h (by simp)
  · split at h
    · exact absurd h (by simp)
    · exact ⟨_, rfl, h⟩

theorem enqueueInput_eq_ok {live : Option LiveRuntime} {expectedAdmissionId expectedRunId : String}
    {create : Queue → Except SessionError (InputTicket × Queue)} {q q' : Queue} {t : InputTicket}
    (h : enqueueInput live expectedAdmissionId expectedRunId create q = .ok (t, q')) :
    create q = .ok (t, q') := by
  unfold enqueueInput at h
  dsimp only at h
  split at h
  · exact absurd h (by simp)
  · split at h
    · exact absurd h (by simp)
    · split at h
      · exact absurd h (by simp)
      · exact h

/-- A claim selects a queued ticket. -/
theorem claimTicket_eq_some {chatId delivery runId : String} {now : ℚ} {q q' : Queue}
    {t : InputTicket} (h : claimTicket chatId delivery runId now q = (some t, q')) :
    ∃ row, q.ticket? row.ticketId = some row ∧ row.state = .queued ∧ t = selectChange runId now row ∧
      q' = q.update row (selectChange runId now) (ticketId_selectChange runId now) := by
  unfold claimTicket at h
  split at h
  · exact absurd h (by simp)
  · rename_i row hhead
    obtain ⟨ht, rfl⟩ := Prod.mk.inj h
    have hmem : row ∈ q.tickets.rows.filter fun r => r.chatId == chatId && r.state == .queued &&
        (choices delivery).contains r.delivery := by
      have := List.mem_of_mem_head? hhead
      rwa [inOrder, List.mem_insertionSort] at this
    obtain ⟨hrow, hcond⟩ := List.mem_filter.mp hmem
    have hstate : row.state = .queued := by
      simp only [Bool.and_eq_true, beq_iff_eq] at hcond
      exact hcond.1.2
    exact ⟨row, Table.find?_key_of_mem hrow, hstate, (Option.some.inj ht).symm, rfl⟩

theorem selectInput_eq_some {live : Option LiveRuntime} {chatId delivery runId : String} {now : ℚ}
    {q q' : Queue} {t : InputTicket}
    (h : selectInput live chatId delivery runId now q = (some t, q')) :
    ∃ q₁, claimTicket chatId delivery (claimedRunId live runId) now q = (some t, q₁) ∧
      q' = { q₁ with claiming := q₁.claiming ++ [t] } := by
  unfold selectInput at h
  split at h
  · exact absurd h (by simp)
  · split at h
    · exact absurd h (by simp)
    · rename_i t' q₁ hclaim
      obtain ⟨ht, rfl⟩ := Prod.mk.inj h
      obtain rfl := Option.some.inj ht
      exact ⟨q₁, hclaim, rfl⟩

theorem selectInput_eq_none {live : Option LiveRuntime} {chatId delivery runId : String} {now : ℚ}
    {q q' : Queue} (h : selectInput live chatId delivery runId now q = (none, q')) : q' = q := by
  unfold selectInput at h
  split at h
  · exact (Prod.mk.inj h).2.symm
  · split at h
    · rename_i q₁ hclaim
      obtain rfl := (Prod.mk.inj h).2
      unfold claimTicket at hclaim
      split at hclaim
      · exact (Prod.mk.inj hclaim).2.symm
      · exact absurd hclaim (by simp)
    · exact absurd h (by simp)

theorem touched_parkTickets (chatId reason : String) (now : ℚ) (q : Queue) (id : String) :
    Touched id (.parked (parkTickets chatId reason now q).1) (q.ticket? id)
      ((parkTickets chatId reason now q).2.ticket? id) := by
  unfold parkTickets
  dsimp only
  rw [Queue.ticket?_bump]
  unfold Queue.ticket?
  rw [Table.find?_updateWhere]
  cases q.tickets.find? id with
  | none => exact .same
  | some r =>
      rw [Option.map_some]
      by_cases hpark : (r.chatId == chatId && parkable.contains r.state) = true
      · rw [if_pos hpark]
        have hmem : r.state ∈ parkable := by
          rw [Bool.and_eq_true] at hpark
          simpa using hpark.2
        exact .moved (.park _ hmem)
      · rw [if_neg hpark]
        exact .same

/-- A command moves the ticket it names. -/
theorem queuedTicketCommand_eq_ok {chatId ticketId : String} {expectedRevision : PyValue}
    {operation : String} {now : ℚ} {q q' : Queue} {t : InputTicket}
    (h : queuedTicketCommand chatId ticketId expectedRevision operation now q = .ok (t, q')) :
    ∃ row, q.ticket? ticketId = some row ∧
      ((operation = "continue" ∧ row.state = .parked ∧ t = continueChange now row ∧
          q' = q.update row (continueChange now) (ticketId_continueChange now)) ∨
        (operation = "remove" ∧ row.state ∈ [.queued, .resumeQueued, .parked] ∧
          t = removeChange now row ∧
          q' = q.update row (removeChange now) (ticketId_removeChange now))) := by
  unfold queuedTicketCommand at h
  split at h
  · split at h
    · exact absurd h (by simp)
    split at h
    · exact absurd h (by simp)
    split at h
    · exact absurd h (by simp)
    rename_i row hrow
    have hfound := (Option.filter_eq_some_iff.mp hrow).1
    split at h
    · rename_i hcontinue
      split at h
      · exact absurd h (by simp)
      · rename_i hstate
        obtain ⟨ht, hq⟩ := Prod.mk.inj (Except.ok.inj h)
        exact ⟨row, hfound, .inl ⟨hcontinue, not_not.mp hstate, ht.symm, hq.symm⟩⟩
    · split at h
      · rename_i hremove
        split at h
        · exact absurd h (by simp)
        · rename_i hstate
          obtain ⟨ht, hq⟩ := Prod.mk.inj (Except.ok.inj h)
          exact ⟨row, hfound, .inr ⟨hremove, not_not.mp hstate, ht.symm, hq.symm⟩⟩
      · exact absurd h (by simp)
  · exact absurd h (by simp)

/-- What `claim_input` hands over is the row as its transition leaves it. -/
theorem prepareInput_fst {t row : InputTicket} {now : ℚ} {q : Queue}
    (h : q.ticket? t.ticketId = some row) :
    (prepareInput t now q).1 =
      if row.state = .selected then transitionChange .preparing none "" now row else row := by
  unfold prepareInput transitionTicket
  rw [h]
  by_cases hstate : row.state = .selected
  · simp [hstate]
  · simp [hstate]

theorem ticketId_prepareInput (t : InputTicket) (now : ℚ) (q : Queue) :
    (prepareInput t now q).1.ticketId = t.ticketId := by
  cases hrow : q.ticket? t.ticketId with
  | none =>
      unfold prepareInput transitionTicket
      rw [hrow]
      rfl
  | some row =>
      have hkey : row.ticketId = t.ticketId := Queue.ticketId_of_ticket? hrow
      rw [prepareInput_fst hrow]
      split <;> exact hkey

/-- **What one transaction does to one ticket.** -/
theorem step_touched {c : QueueCall} {q q' : Queue} {reply : QueueReply} (hq : q.Valid)
    (h : q.step c = (reply, q')) (id : String) :
    Touched id reply (q.ticket? id) (q'.ticket? id) := by
  -- a transition of a delivery or of a transcript
  have recorded : ∀ {tid target expected proof error now}, expected ≠ [] →
      (∀ s ∈ expected, s.terminal = false) → offered target = false →
      Queue.record tid target expected proof error now q = (reply, q') →
      Touched id reply (q.ticket? id) (q'.ticket? id) := by
    intro tid target expected proof error now hne hopen htarget hrec
    obtain ⟨rfl, rfl⟩ := Prod.mk.inj hrec
    exact touched_transitionTicket hne (fun row _ hrow => .record (hopen _ hrow) htarget) id
  cases c with
  | enqueue =>
      unfold Queue.step at h
      dsimp only at h
      split at h
      · obtain ⟨rfl, rfl⟩ := Prod.mk.inj h
        exact .same
      · rename_i t q₁ henqueue
        obtain ⟨rfl, rfl⟩ := Prod.mk.inj h
        obtain ⟨row, hrow, hinsert⟩ := createTicket_eq_ok (enqueueInput_eq_ok henqueue)
        exact touched_insertTicket hrow hinsert id
  | select =>
      unfold Queue.step at h
      dsimp only at h
      split at h
      · rename_i q₁ hselect
        obtain ⟨rfl, rfl⟩ := Prod.mk.inj h
        rw [selectInput_eq_none hselect]
        exact .same
      · rename_i t q₁ hselect
        obtain ⟨rfl, rfl⟩ := Prod.mk.inj h
        obtain ⟨q₂, hclaim, rfl⟩ := selectInput_eq_some hselect
        obtain ⟨row, hrow, hstate, rfl, rfl⟩ := claimTicket_eq_some hclaim
        refine touched_update (ticketId_selectChange _ _) hrow ?_ id
        rw [hstate]
        exact .select _ rfl
  | prepare k now =>
      unfold Queue.step at h
      dsimp only at h
      split at h
      · obtain ⟨rfl, rfl⟩ := Prod.mk.inj h
        exact .same
      · rename_i t ht
        obtain ⟨rfl, rfl⟩ := Prod.mk.inj h
        refine touched_transitionTicket (by simp) (fun r hr hstate => ?_) id
        rw [List.mem_singleton] at hstate
        rw [hstate]
        exact .prepare _ (ticketId_prepareInput t now q)
  | park chatId reason now =>
      obtain ⟨rfl, rfl⟩ := Prod.mk.inj h
      exact touched_parkTickets chatId reason now q id
  | command =>
      unfold Queue.step at h
      dsimp only at h
      split at h
      · obtain ⟨rfl, rfl⟩ := Prod.mk.inj h
        exact .same
      · rename_i t q₁ hcommand
        obtain ⟨rfl, rfl⟩ := Prod.mk.inj h
        obtain ⟨row, hrow, ⟨rfl, hstate, rfl, rfl⟩ | ⟨rfl, hstate, rfl, rfl⟩⟩ :=
          queuedTicketCommand_eq_ok hcommand
        · have hkey := Queue.ticketId_of_ticket? hrow
          refine touched_update (ticketId_continueChange _) hrow ?_ id
          rw [hstate]
          exact .resume _ hkey
        · exact touched_update (ticketId_removeChange _) hrow (.remove _ hstate) id
  | listCancel | listPromote | listReconcile =>
      obtain ⟨rfl, rfl⟩ := Prod.mk.inj h
      exact .same
  | move k now =>
      unfold Queue.step at h
      dsimp only at h
      split at h
      · obtain ⟨rfl, rfl⟩ := Prod.mk.inj h
        exact .same
      · rename_i m hm
        obtain ⟨rfl, rfl⟩ := Prod.mk.inj h
        have hvalid := hq m (List.mem_of_getElem? hm)
        have hne : m.expected ≠ [] := by
          obtain ⟨s, hs, -⟩ := hvalid.listed
          simp [hs]
        refine touched_transitionTicket hne (fun row hrow hstate => ?_) id
        rw [hrow]
        exact .move m row hvalid rfl hstate
  | recordDelivery => exact recorded (by simp) (by decide) rfl h
  | beginCommit => exact recorded (by simp) (by decide) rfl h
  | completeCommit => exact recorded (by simp) (by decide) rfl h
  | failCommit => exact recorded (by simp) (by decide) rfl h

/-! ## 2.  The calls under way -/

theorem valid_cancelMoves {reason : String} {tickets : List InputTicket}
    (h : ∀ t ∈ tickets, t.state.terminal = false) : ∀ m ∈ cancelMoves reason tickets, m.Valid := by
  intro m hm
  obtain ⟨t, ht, rfl⟩ := List.mem_map.mp hm
  exact ⟨⟨t.state, rfl, h t ht⟩, by simp, by simp⟩

theorem valid_promoteMoves (deliveredIds : List String) (includeUndelivered : Bool)
    (tickets : List InputTicket) :
    ∀ m ∈ promoteMoves deliveredIds includeUndelivered tickets, m.Valid := by
  intro m hm
  obtain ⟨t, -, rfl⟩ := List.mem_map.mp hm
  refine ⟨⟨.resumeQueued, rfl, rfl⟩, ?_, ?_⟩
  · dsimp only
    split <;> simp
  · dsimp only
    split <;> simp

theorem valid_reconcileMoves {proven : List String} {tickets : List InputTicket}
    (h : ∀ t ∈ tickets, t.state.terminal = false) :
    ∀ m ∈ reconcileMoves proven tickets, m.Valid := by
  intro m hm
  obtain ⟨t, ht, rfl⟩ := List.mem_map.mp hm
  split
  · exact ⟨⟨t.state, rfl, h t ht⟩, by simp, by simp⟩
  · exact ⟨⟨t.state, rfl, h t ht⟩, by simp, by simp⟩

/-- A list of tickets in open states holds no terminal one. -/
theorem open_of_mem_listTickets {q : Queue} {chatId : String} {states : List TicketState}
    {t : InputTicket} (hne : states ≠ []) (hopen : ∀ s ∈ states, s.terminal = false)
    (h : t ∈ listTickets q chatId states) : t.state.terminal = false := by
  rw [listTickets, inOrder, List.mem_insertionSort] at h
  have hcond := (List.mem_filter.mp h).2
  simp only [Bool.and_eq_true, Bool.or_eq_true, List.isEmpty_iff, hne, false_or] at hcond
  exact hopen _ (by simpa using hcond.2)

/-- What a transaction does to the `claim_input` calls under way. -/
inductive Claims : QueueReply → List InputTicket → List InputTicket → Prop
  | same {reply : QueueReply} {ts : List InputTicket} : (∀ t, reply ≠ .claimed t) →
      (∀ t, reply ≠ .handed t) → Claims reply ts ts
  | claimed {t : InputTicket} {ts : List InputTicket} : Claims (.claimed t) ts (ts ++ [t])
  | handed {t t₀ : InputTicket} {ts : List InputTicket} {k : Nat} : ts[k]? = some t₀ →
      t.ticketId = t₀.ticketId → Claims (.handed t) ts (ts.eraseIdx k)

/-- What a transaction does to the calls under way. -/
theorem step_calls {c : QueueCall} {q q' : Queue} {reply : QueueReply}
    (h : q.step c = (reply, q')) :
    Claims reply q.claiming q'.claiming ∧ ∀ m ∈ q'.pending, m ∈ q.pending ∨ m.Valid := by
  have recorded : ∀ {tid target expected proof error now},
      Queue.record tid target expected proof error now q = (reply, q') →
      Claims reply q.claiming q'.claiming ∧ ∀ m ∈ q'.pending, m ∈ q.pending ∨ m.Valid := by
    intro tid target expected proof error now hrec
    obtain ⟨rfl, rfl⟩ := Prod.mk.inj hrec
    rw [claiming_transitionTicket, pending_transitionTicket]
    exact ⟨.same (by simp) (by simp), fun m hm => .inl hm⟩
  have deferred : ∀ {moves : List PendingMove}, (∀ m ∈ moves, m.Valid) →
      q.defer moves = (reply, q') →
      Claims reply q.claiming q'.claiming ∧ ∀ m ∈ q'.pending, m ∈ q.pending ∨ m.Valid := by
    intro moves hmoves hdefer
    obtain ⟨rfl, rfl⟩ := Prod.mk.inj hdefer
    exact ⟨.same (by simp) (by simp), fun m hm => (List.mem_append.mp hm).imp_right (hmoves m)⟩
  cases c with
  | enqueue =>
      unfold Queue.step at h
      dsimp only at h
      split at h
      · obtain ⟨rfl, rfl⟩ := Prod.mk.inj h
        exact ⟨.same (by simp) (by simp), fun m hm => .inl hm⟩
      · rename_i t q₁ henqueue
        obtain ⟨rfl, rfl⟩ := Prod.mk.inj h
        obtain ⟨row, -, hinsert⟩ := createTicket_eq_ok (enqueueInput_eq_ok henqueue)
        unfold insertTicket at hinsert
        split at hinsert
        · exact absurd hinsert (by simp)
        split at hinsert
        · split at hinsert
          · obtain ⟨-, rfl⟩ := Prod.mk.inj (Except.ok.inj hinsert)
            exact ⟨.same (by simp) (by simp), fun m hm => .inl hm⟩
          · exact absurd hinsert (by simp)
        · split at hinsert
          · obtain ⟨-, rfl⟩ := Prod.mk.inj (Except.ok.inj hinsert)
            exact ⟨.same (by simp) (by simp), fun m hm => .inl hm⟩
          · exact absurd hinsert (by simp)
  | select =>
      unfold Queue.step at h
      dsimp only at h
      split at h
      · rename_i q₁ hselect
        obtain ⟨rfl, rfl⟩ := Prod.mk.inj h
        rw [selectInput_eq_none hselect] at *
        exact ⟨.same (by simp) (by simp), fun m hm => .inl hm⟩
      · rename_i t q₁ hselect
        obtain ⟨rfl, rfl⟩ := Prod.mk.inj h
        obtain ⟨q₂, hclaim, rfl⟩ := selectInput_eq_some hselect
        obtain ⟨row, -, -, -, rfl⟩ := claimTicket_eq_some hclaim
        exact ⟨.claimed, fun m hm => .inl hm⟩
  | prepare k now =>
      unfold Queue.step at h
      dsimp only at h
      split at h
      · obtain ⟨rfl, rfl⟩ := Prod.mk.inj h
        exact ⟨.same (by simp) (by simp), fun m hm => .inl hm⟩
      · rename_i t ht
        obtain ⟨rfl, rfl⟩ := Prod.mk.inj h
        refine ⟨.handed ht (ticketId_prepareInput t now q), fun m hm => .inl ?_⟩
        exact pending_transitionTicket t.ticketId .preparing [.selected] none "" now q ▸ hm
  | park =>
      obtain ⟨rfl, rfl⟩ := Prod.mk.inj h
      exact ⟨.same (by simp) (by simp), fun m hm => .inl hm⟩
  | command =>
      unfold Queue.step at h
      dsimp only at h
      split at h
      · obtain ⟨rfl, rfl⟩ := Prod.mk.inj h
        exact ⟨.same (by simp) (by simp), fun m hm => .inl hm⟩
      · rename_i t q₁ hcommand
        obtain ⟨rfl, rfl⟩ := Prod.mk.inj h
        obtain ⟨row, -, ⟨-, -, -, rfl⟩ | ⟨-, -, -, rfl⟩⟩ := queuedTicketCommand_eq_ok hcommand
        · exact ⟨.same (by simp) (by simp), fun m hm => .inl hm⟩
        · exact ⟨.same (by simp) (by simp), fun m hm => .inl hm⟩
  | listCancel =>
      refine deferred (valid_cancelMoves fun t ht => ?_) h
      exact open_of_mem_listTickets (by decide) (by decide) ht
  | listPromote =>
      exact deferred (valid_promoteMoves _ _ _) h
  | listReconcile =>
      refine deferred (valid_reconcileMoves fun t ht => ?_) h
      exact open_of_mem_listTickets (by decide) (by decide) ht
  | move k now =>
      unfold Queue.step at h
      dsimp only at h
      split at h
      · obtain ⟨rfl, rfl⟩ := Prod.mk.inj h
        exact ⟨.same (by simp) (by simp), fun m hm => .inl hm⟩
      · obtain ⟨rfl, rfl⟩ := Prod.mk.inj h
        refine ⟨?_, fun m hm => .inl (List.mem_of_mem_eraseIdx hm)⟩
        rw [claiming_transitionTicket]
        exact .same (by simp) (by simp)
  | recordDelivery | beginCommit | completeCommit | failCommit =>
      exact recorded h

theorem valid_of_run {h : List (QueueCall × QueueReply)} {q : Queue} (hrun : tickets.Run h q) :
    q.Valid := by
  refine hrun.invariant (I := fun _ q => q.Valid) (fun m hm => absurd hm (by simp [tickets,
    Queue.empty])) fun h q c reply q' _ hq hs m hm => ?_
  rcases (step_calls hs).2 m hm with hold | hnew
  · exact hq m hold
  · exact hnew

/-! ## 3.  How often a ticket is handed over -/

abbrev History := List (QueueCall × QueueReply)

/-- `claim_input` selected the ticket. -/
def isClaimOf (id : String) (e : QueueCall × QueueReply) : Bool :=
  match e.2 with
  | .claimed t => t.ticketId == id
  | _ => false

/-- `claim_input` handed the ticket to the model. -/
def isHandoverOf (id : String) (e : QueueCall × QueueReply) : Bool :=
  match e.2 with
  | .handed t => t.ticketId == id
  | _ => false

/-- A resume put the ticket back into the queue. -/
def isRequeueOf (id : String) (e : QueueCall × QueueReply) : Bool :=
  match e.2 with
  | .moved m (some row) =>
      m.ticketId == id && m.target == .queued && m.expected.contains row.state
  | _ => false

/-- An explicit continue prepared the ticket. -/
def isContinueOf (id : String) (e : QueueCall × QueueReply) : Bool :=
  match e.2 with
  | .commanded operation t => operation == "continue" && t.ticketId == id
  | _ => false

def claims (id : String) (h : History) : Nat := h.countP (isClaimOf id)

def handovers (id : String) (h : History) : Nat := h.countP (isHandoverOf id)

def requeues (id : String) (h : History) : Nat := h.countP (isRequeueOf id)

def continues (id : String) (h : History) : Nat := h.countP (isContinueOf id)

/-- The selected tickets with this id that are not handed over yet. -/
def underWay (id : String) (q : Queue) : Nat := q.claiming.countP fun t => t.ticketId == id

/-- The ticket may still be selected without another resume: it is queued, or not
created yet. -/
def claimable (id : String) (q : Queue) : Nat :=
  match q.ticket? id with
  | none => 1
  | some row => if row.state = .queued then 1 else 0

/-- **Each claim hands over what it selected.** -/
theorem handovers_add_underWay {h : History} {q : Queue} (hrun : tickets.Run h q) (id : String) :
    handovers id h + underWay id q = claims id h := by
  refine hrun.invariant (I := fun h q => handovers id h + underWay id q = claims id h) rfl
    fun h q c reply q' _ ih hs => ?_
  have hcalls := (step_calls hs).1
  unfold handovers claims underWay at *
  rw [List.countP_cons, List.countP_cons]
  generalize q.claiming = ts at *
  generalize q'.claiming = ts' at *
  cases hcalls with
  | same hclaim hhand =>
      have h₁ : isClaimOf id (c, reply) = false := by
        unfold isClaimOf
        split
        · exact absurd ‹_› (hclaim _)
        · rfl
      have h₂ : isHandoverOf id (c, reply) = false := by
        unfold isHandoverOf
        split
        · exact absurd ‹_› (hhand _)
        · rfl
      simp only [h₁, h₂]
      exact ih
  | @claimed t ts =>
      have h₁ : isClaimOf id (c, .claimed t) = (t.ticketId == id) := rfl
      have h₂ : isHandoverOf id (c, .claimed t) = false := rfl
      rw [h₁, h₂, List.countP_append, List.countP_singleton]
      simp only [Bool.false_eq_true, if_false]
      omega
  | @handed t t₀ ts k hk hid =>
      have h₁ : isClaimOf id (c, .handed t) = false := rfl
      have h₂ : isHandoverOf id (c, .handed t) = (t₀.ticketId == id) := hid ▸ rfl
      obtain ⟨hlt, rfl⟩ := List.getElem?_eq_some_iff.mp hk
      have hperm := (List.getElem_cons_eraseIdx_perm hlt).countP_eq (fun t => t.ticketId == id)
      rw [List.countP_cons] at hperm
      rw [h₁, h₂]
      simp only [Bool.false_eq_true, if_false]
      omega

/-- A claim finds its ticket queued and leaves it selected. -/
theorem step_claimed {c : QueueCall} {q q' : Queue} {t : InputTicket}
    (h : q.step c = (.claimed t, q')) :
    (∃ row, q.ticket? t.ticketId = some row ∧ row.state = .queued) ∧
      ∃ row, q'.ticket? t.ticketId = some row ∧ row.state = .selected := by
  cases c with
  | select live chatId delivery runId now =>
      unfold Queue.step at h
      dsimp only at h
      split at h
      · exact absurd h (by simp)
      · rename_i t' q₁ hselect
        obtain ⟨ht, rfl⟩ := Prod.mk.inj h
        obtain rfl := QueueReply.claimed.inj ht
        obtain ⟨q₂, hclaim, rfl⟩ := selectInput_eq_some hselect
        obtain ⟨row, hrow, hstate, rfl, rfl⟩ := claimTicket_eq_some hclaim
        refine ⟨⟨row, hrow, hstate⟩, selectChange (claimedRunId live runId) now row, ?_, rfl⟩
        show (q.update row _ (ticketId_selectChange _ _)).ticket? row.ticketId = _
        rw [Queue.ticket?_update hrow, if_pos rfl]
  | enqueue | command | prepare | move =>
      unfold Queue.step at h
      dsimp only at h
      split at h <;> exact absurd h (by simp)
  | park | listCancel | listPromote | listReconcile | recordDelivery | beginCommit
  | completeCommit | failCommit => exact absurd (Prod.mk.inj h).1 (by simp)

/-- Only a claim makes a ticket less claimable, and only a resume makes it more so. -/
theorem claimable_step {c : QueueCall} {q q' : Queue} {reply : QueueReply} (hq : q.Valid)
    (h : q.step c = (reply, q')) (id : String) :
    (if isClaimOf id (c, reply) then 1 else 0) + claimable id q' ≤
      claimable id q + if isRequeueOf id (c, reply) then 1 else 0 := by
  by_cases hclaim : isClaimOf id (c, reply) = true
  · have ht : ∃ t, reply = .claimed t ∧ t.ticketId = id := by
      unfold isClaimOf at hclaim
      split at hclaim
      · rename_i t hreply
        exact ⟨t, hreply, by simpa using hclaim⟩
      · exact absurd hclaim (by simp)
    obtain ⟨t, rfl, rfl⟩ := ht
    obtain ⟨⟨row, hrow, hstate⟩, row', hrow', hstate'⟩ := step_claimed h
    have hbefore : claimable t.ticketId q = 1 := by simp [claimable, hrow, hstate]
    have hafter : claimable t.ticketId q' = 0 := by simp [claimable, hrow', hstate']
    rw [if_pos hclaim, hbefore, hafter]
    omega
  · rw [if_neg hclaim, Nat.zero_add]
    have htouched := step_touched hq h id
    unfold claimable
    generalize q.ticket? id = r at *
    generalize q'.ticket? id = r' at *
    cases htouched with
    | same => omega
    | @created row _ hstate => simp [hstate]
    | @moved row row' hedge =>
        dsimp only
        by_cases hqueued : row'.state = .queued
        · rw [if_pos hqueued]
          rw [hqueued] at hedge
          generalize hs : row.state = s at hedge
          generalize ht : TicketState.queued = target at hedge
          cases hedge with
          | select | prepare | park | resume | remove => exact absurd ht (by simp)
          | record _ hoffered => exact absurd hoffered (by simp [← ht, offered])
          | move m found hvalid hid hmem =>
              have : isRequeueOf id (c, .moved m (some found)) = true := by
                unfold isRequeueOf
                simp [hid, ← ht, hmem]
              rw [if_pos this]
              omega
        · rw [if_neg hqueued]
          omega

/-- **A ticket is claimed once for each time it was queued.** -/
theorem claims_le {h : History} {q : Queue} (hrun : tickets.Run h q) (id : String) :
    claims id h + claimable id q ≤ 1 + requeues id h := by
  refine hrun.invariant (I := fun h q => claims id h + claimable id q ≤ 1 + requeues id h)
    (le_refl _) fun h q c reply q' hrun' ih hs => ?_
  have hstep := claimable_step (valid_of_run hrun') hs id
  unfold claims requeues at *
  rw [List.countP_cons, List.countP_cons]
  omega

/-- **A ticket is handed over at most once for each time it was queued.** -/
theorem handovers_le {h : History} {q : Queue} (hrun : tickets.Run h q) (id : String) :
    handovers id h ≤ 1 + requeues id h := by
  have hclaims := claims_le hrun id
  have hhand := handovers_add_underWay hrun id
  omega

/-! ## 4.  Terminal, cancelled and parked tickets -/

theorem Edge.open_of_left {id : String} {reply : QueueReply} {s s' : TicketState}
    (h : Edge id reply s s') : s.terminal = false := by
  cases h with
  | select | prepare | resume => rfl
  | park ts hs =>
      revert hs
      cases s <;> decide
  | remove t hs =>
      revert hs
      cases s <;> decide
  | move m row hvalid hid hmem =>
      obtain ⟨e, he, hopen⟩ := hvalid.listed
      rw [he, List.mem_singleton] at hmem
      rw [hmem, hopen]
  | record hopen => exact hopen

/-- Only a resume and a continue offer a ticket again. -/
theorem Edge.offered_right {id : String} {reply : QueueReply} {s s' : TicketState} {c : QueueCall}
    (h : Edge id reply s s') (hs : offered s = false) (hs' : offered s' = true) :
    isRequeueOf id (c, reply) = true ∨ isContinueOf id (c, reply) = true := by
  cases h with
  | select | prepare => exact absurd hs (by decide)
  | park | remove => exact absurd hs' (by decide)
  | record _ hoffered => exact absurd hs' (by simp [hoffered])
  | resume t hid => exact .inr (by simp [isContinueOf, hid])
  | move m row hvalid hid hmem =>
      have htarget : m.target = .queued := by
        obtain ⟨hne₁, hne₂⟩ := hvalid.target
        generalize m.target = target at *
        cases target <;> simp_all [offered]
      exact .inl (by simp [isRequeueOf, hid, htarget, hmem])

/-- A terminal ticket stays as it is. -/
theorem step_terminal {c : QueueCall} {q q' : Queue} {reply : QueueReply} (hq : q.Valid)
    (h : q.step c = (reply, q')) {id : String} {row : InputTicket} (hrow : q.ticket? id = some row)
    (hterminal : row.state.terminal = true) : q'.ticket? id = some row := by
  have htouched := step_touched hq h id
  rw [hrow] at htouched
  generalize q'.ticket? id = r' at *
  cases htouched with
  | same => rfl
  | moved hedge => exact absurd hedge.open_of_left (by simp [hterminal])

/-- The ticket of a `claim_input` between its transactions is still selected. -/
def stillSelected (q : Queue) (ticket : InputTicket) : Bool :=
  (q.ticket? ticket.ticketId).any fun row => row.state == .selected

/-- Nothing takes a ticket away between the two transactions of `claim_input`. -/
def Steady (_ : History) (q : Queue) : QueueCall → Prop
  | .prepare k _ => (q.claiming[k]?).all (stillSelected q) = true
  | _ => True

/-- What is handed over while it is still selected is in state preparing. -/
theorem step_handed {h : History} {c : QueueCall} {q q' : Queue} {t : InputTicket}
    (hs : q.step c = (.handed t, q')) (hsteady : Steady h q c) :
    t.state = .preparing ∧ ∃ row, q.ticket? t.ticketId = some row ∧ offered row.state = true := by
  cases c with
  | prepare k now =>
      unfold Queue.step at hs
      dsimp only at hs
      split at hs
      · exact absurd hs (by simp)
      · rename_i t₀ ht₀
        obtain ⟨ht, -⟩ := Prod.mk.inj hs
        obtain rfl := QueueReply.handed.inj ht
        have hstill : stillSelected q t₀ = true := by
          have : (q.claiming[k]?).all (stillSelected q) = true := hsteady
          rwa [ht₀, Option.all_some] at this
        obtain ⟨row, hrow, hstate⟩ := (Option.any_eq_true _ _).mp hstill
        rw [beq_iff_eq] at hstate
        rw [ticketId_prepareInput]
        refine ⟨?_, row, hrow, by simp [offered, hstate]⟩
        rw [prepareInput_fst hrow, if_pos hstate]
        rfl
  | enqueue | select | command | move =>
      unfold Queue.step at hs
      dsimp only at hs
      split at hs <;> exact absurd hs (by simp)
  | park | listCancel | listPromote | listReconcile | recordDelivery | beginCommit
  | completeCommit | failCommit => exact absurd (Prod.mk.inj hs).1 (by simp)

/-- From a state in which a ticket is not on its way, it is handed over only after a
resume or a continue. -/
theorem not_handed_of_extends {h later : History} {q q' : Queue} {id : String} {row : InputTicket}
    (hrun : tickets.RunWhere Steady h q) (hext : tickets.Extends Steady h q later q')
    (hrow : q.ticket? id = some row) (hoffered : offered row.state = false)
    (hrequeues : requeues id later = 0) (hcontinues : continues id later = 0) :
    handovers id later = 0 := by
  -- the ticket stays off its way as long as nothing offers it again
  have hinv := hext.invariant (I := fun later q' => requeues id later = 0 →
      continues id later = 0 → handovers id later = 0 ∧
        ∃ row', q'.ticket? id = some row' ∧ offered row'.state = false)
    (fun _ _ => ⟨rfl, row, hrow, hoffered⟩) ?_
  · exact (hinv hrequeues hcontinues).1
  · intro later q₁ c reply q₂ hext ih hsteady hs hrequeues hcontinues
    unfold requeues at hrequeues
    unfold continues at hcontinues
    rw [List.countP_cons, Nat.add_eq_zero_iff] at hrequeues hcontinues
    obtain ⟨hhanded, row', hrow', hoff⟩ := ih hrequeues.1 hcontinues.1
    have hreq : isRequeueOf id (c, reply) ≠ true := by
      intro hr
      exact absurd hrequeues.2 (by simp [hr])
    have hcon : isContinueOf id (c, reply) ≠ true := by
      intro hc
      exact absurd hcontinues.2 (by simp [hc])
    constructor
    · unfold handovers
      rw [List.countP_cons_of_neg]
      · exact hhanded
      · intro hhand
        unfold isHandoverOf at hhand
        split at hhand
        · rename_i t hreply
          obtain rfl : reply = .handed t := hreply
          obtain ⟨-, r, hr, hoff'⟩ := step_handed hs hsteady
          rw [beq_iff_eq.mp hhand, hrow'] at hr
          rw [← Option.some.inj hr, hoff] at hoff'
          exact absurd hoff' (by simp)
        · exact absurd hhand (by simp)
    · have htouched := step_touched (valid_of_run (hrun.extend hext).run) hs id
      rw [hrow'] at htouched
      generalize q₂.ticket? id = r₂ at *
      cases htouched with
      | same => exact ⟨row', rfl, hoff⟩
      | @moved _ row'' hedge =>
          refine ⟨row'', rfl, ?_⟩
          by_contra hon
          rw [Bool.not_eq_false] at hon
          rcases hedge.offered_right hoff hon with hr | hc
          · exact hreq hr
          · exact hcon hc

/-! ## 5.  Delivery -/

/-- **Delivery of input tickets.**  In every run in which nothing takes a ticket away
between the two transactions of `claim_input`: what is handed to the model is in
state preparing; a ticket is handed over at most once, and once more for each resume
that puts it back; a terminal ticket stays as it is; and a cancelled or parked ticket
is not handed over before a resume or a continue. -/
theorem claimInput_delivery {h : History} {q : Queue} (hrun : tickets.RunWhere Steady h q) :
    (∀ c t, (c, QueueReply.handed t) ∈ h → t.state = .preparing) ∧
      (∀ id, handovers id h ≤ 1 + requeues id h) ∧
      ∀ later q', tickets.Extends Steady h q later q' → ∀ id row, q.ticket? id = some row →
        (row.state.terminal = true → q'.ticket? id = some row) ∧
          (row.state = .cancelled ∨ row.state = .parked → requeues id later = 0 →
            continues id later = 0 → handovers id later = 0) := by
  refine ⟨?_, handovers_le hrun.run, ?_⟩
  · refine hrun.invariant (I := fun h _ => ∀ c t, (c, QueueReply.handed t) ∈ h →
      t.state = .preparing) (fun c t ht => absurd ht (by simp)) ?_
    intro h q c reply q' _ ih hsteady hs c' t ht
    rcases List.mem_cons.mp ht with hhead | htail
    · obtain ⟨-, rfl⟩ := Prod.mk.inj hhead
      exact (step_handed hs hsteady).1
    · exact ih c' t htail
  · intro later q' hext id row hrow
    constructor
    · intro hterminal
      refine hext.invariant (I := fun _ q' => q'.ticket? id = some row) hrow ?_
      intro later q₁ c reply q₂ hext ih _ hs
      exact step_terminal (valid_of_run (hrun.extend hext).run) hs ih hterminal
    · intro hstate
      refine not_handed_of_extends hrun hext hrow ?_
      rcases hstate with hstate | hstate <;> rw [hstate] <;> rfl

/-! ## 6.  Two runs -/

/-- An input for an idle chat. -/
def steer (ticketId : String) (now : ℚ) : QueueCall :=
  .enqueue none (some .active) "" "" "chat" "look again" "steer" "" "" "" ticketId "" now

/-- The input is created and selected. -/
def selectFirst : List QueueCall := [steer "t1" 1, .select none "chat" "steer" "run" 2]

/-- The rest of an undisturbed delivery. -/
def commitFirst : List QueueCall :=
  [.recordDelivery "t1" none 4, .beginCommit "t1" 5, .completeCommit "t1" none 6]

/-- A ticket is delivered and its transcript committed. -/
theorem claimInput_delivery_once :
    ∃ h q, tickets.Run h q ∧ handovers "t1" h = 1 ∧ handovers "t1" h ≤ 1 + requeues "t1" h ∧
      ∃ row, q.ticket? "t1" = some row ∧ row.state = .completed := by
  have hselected := (Machine.RunWhere.start (M := tickets) (C := Steady)).exec selectFirst
    (by simp [selectFirst, steer, Steady])
  have hstill : ((tickets.exec ([], tickets.start) selectFirst).2.claiming[0]?).all
      (stillSelected (tickets.exec ([], tickets.start) selectFirst).2) = true := by
    decide +kernel
  have hsteady : ∀ h, Steady h (tickets.exec ([], tickets.start) selectFirst).2 (.prepare 0 3) :=
    fun _ => hstill
  have hprepared := Machine.RunWhere.step hselected (hsteady _) rfl
  have hdone := hprepared.exec commitFirst (by simp [commitFirst, Steady])
  have hstate : ((tickets.exec ([], tickets.start) (selectFirst ++ .prepare 0 3 ::
      commitFirst)).2.ticket? "t1").map (·.state) = some .completed := by
    decide +kernel
  exact ⟨_, _, hdone.run, by decide +kernel, (claimInput_delivery hdone).2.1 "t1",
    Option.map_eq_some_iff.mp hstate⟩

/-- The ticket is cancelled between the two transactions of `claim_input`. -/
def cancelFirst : List QueueCall := [.listCancel "chat" "stop", .move 0 3, .prepare 0 4]

/-- **A cancelled ticket is handed over.** -/
theorem cancelled_handed :
    ∃ h q, tickets.Run h q ∧
      (∃ c t, (c, QueueReply.handed t) ∈ h ∧ t.ticketId = "t1" ∧ t.state = .cancelled) ∧
      requeues "t1" h = 0 ∧ continues "t1" h = 0 := by
  have hrun := (Machine.Run.start (M := tickets)).exec (selectFirst ++ cancelFirst)
  refine ⟨_, _, hrun, ?_, by decide +kernel, by decide +kernel⟩
  have hhead : ((tickets.exec ([], tickets.start) (selectFirst ++ cancelFirst)).1.head?.bind
      fun e => match e.2 with
        | .handed t => some (t.ticketId, t.state)
        | _ => none) = some ("t1", .cancelled) := by
    decide +kernel
  obtain ⟨⟨c, reply⟩, he, hreply⟩ := Option.bind_eq_some_iff.mp hhead
  dsimp only at hreply
  split at hreply
  · rename_i t
    obtain ⟨hid, hstate⟩ := Prod.mk.inj (Option.some.inj hreply)
    exact ⟨c, t, List.mem_of_mem_head? he, hid, hstate⟩
  · exact absurd hreply (by simp)

end SessionRuntime
end VariantOne
