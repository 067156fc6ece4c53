import Mathlib
import VariantOne.ExecutionHosts.InputQueue

/-!
# Delivery of input

What is proved of a queue of input, in every run of the threads that submit, close and publish and of its
writer: `input_delivered`, whose parts are the fields of `Delivered`.

A step that finds every receipt it looks for does what `Does` lists (`does_of_step`), and four invariants go
along a run.  `Order` follows a write from the queue through the runtime: the writes taken are the first ones
accepted, and the calls are the first ones taken.  `Account` adds up what is unfinished, that is, queued or
with the writer.  `Shelf` is about the receipts: those of unfinished writes are there and not final, every
other one is the final receipt of its write, and each accepted write is unfinished or has one final receipt.
`Marks` says what closing leaves on the receipts: those of the writes it drops are cancelled, and the one of
the write with the writer carries the request to cancel, also when its call has ended.

A receipt is evicted only when a call has ended, and then all unfinished writes are in the queue, whose writes
are the newest ones: at most 128 if `max_writes` is at most 129.  `call_after_close` shows both ends: a call
that comes after the queue is closed, and a receipt that is evicted too early where 130 writes may be pending.
-/

namespace VariantOne
namespace ExecutionHosts

/-! ## 1.  What a step does -/

/-- The write that the writer has not finished. -/
def Writer.write? : Writer → Option Write
  | .taken w => some w
  | .calling w => some w
  | .returned w _ => some w
  | _ => none

/-- The write that the runtime is to be called with. -/
def Writer.toCall : Writer → Option Write
  | .taken w => some w
  | _ => none

/-- The write that the runtime has been called with. -/
def Writer.inCall : Writer → Option Write
  | .calling w => some w
  | _ => none

/-- The call that has ended, where its receipt is not yet final. -/
def Writer.ended? : Writer → Option (Write × Outcome)
  | .returned w outcome => some (w, outcome)
  | _ => none

/-- The writes that are queued or with the writer. -/
def State.unfinished (s : State) : List Write := s.writer.write?.toList ++ s.q.queue

/-- The number of bytes of some writes. -/
def bytes (ws : List Write) : Int := (ws.map fun w => (w.raw.length : Int)).sum

@[simp] theorem bytes_nil : bytes [] = 0 := rfl

@[simp] theorem bytes_cons (w : Write) (ws : List Write) : bytes (w :: ws) = w.raw.length + bytes ws := rfl

theorem bytes_append (ws ws' : List Write) : bytes (ws ++ ws') = bytes ws + bytes ws' := by
  rw [bytes, List.map_append, List.sum_append]
  rfl

/-- What closing makes of the receipts: those it cancels, and those that are stored then. -/
structure Closes (q : InputQueue) (c : List Receipt) (ρ : List (Nat × Receipt)) : Prop where
  ids : c.map Receipt.writeId = q.queue.map Write.id
  state : ∀ r ∈ c, r.state = .cancelled ∧ r.cancelRequested = true
  stored : ∀ r ∈ c, Dict.get? ρ r.writeId = some r
  active : ∀ i r, q.active = some i → Dict.get? q.receipts i = some r → Dict.get? ρ i = some r.requestCancel
  others : ∀ i, i ∉ q.queue.map Write.id → q.active ≠ some i → Dict.get? ρ i = Dict.get? q.receipts i
  keys : Dict.keys ρ = Dict.keys q.receipts

/-- The writer holds the same write, and is as far with it. -/
structure SameHand (a b : Writer) : Prop where
  write : b.write? = a.write?
  toCall : b.toCall = a.toCall
  inCall : b.inCall = a.inCall
  ended : b.ended? = a.ended?

theorem SameHand.refl (a : Writer) : SameHand a a := ⟨rfl, rfl, rfl, rfl⟩

theorem sameHand_started (a : Writer) : SameHand a (if a = .unstarted then .waiting else a) := by
  by_cases h : a = .unstarted
  · rw [if_pos h, h]
    exact ⟨rfl, rfl, rfl, rfl⟩
  · rw [if_neg h]
    exact .refl a

/-- The replies of steps that move no write. -/
inductive Silent : Reply → Prop
  | refused (error : InputError) : Silent (.refused error)
  | published (receipt : Receipt) : Silent (.published receipt)
  | nothing : Silent .nothing

/-- A step that finds every receipt it looks for. -/
inductive Does (L : Limits) : State → Reply → State → Prop
  | silent {s s' : State} {reply : Reply} : Silent reply → s'.q = s.q → s'.nextId = s.nextId →
      SameHand s.writer s'.writer → Does L s reply s'
  | accept {s : State} (raw : List UInt8) : s.q.closed = false → s.q.pendingBytes + raw.length ≤ L.maxBytes →
      s.q.queue.length + s.q.active.toList.length < L.maxWrites →
      Does L s (.accepted ⟨s.nextId, raw⟩) { s with
        q := { s.q with
          receipts := Dict.set s.q.receipts s.nextId (Write.receipt ⟨s.nextId, raw⟩)
          queue := s.q.queue ++ [⟨s.nextId, raw⟩]
          pendingBytes := s.q.pendingBytes + raw.length }
        nextId := s.nextId + 1
        writer := if s.writer = .unstarted then .waiting else s.writer }
  | close {s : State} {c : List Receipt} {ρ : List (Nat × Receipt)} : Closes s.q c ρ →
      Does L s (.closed c) { s with
        q := { s.q with
          queue := []
          pendingBytes := s.q.pendingBytes - bytes s.q.queue
          receipts := ρ
          closed := true }
        unpublished := s.unpublished ++ c }
  | take {s : State} {w : Write} {rest : List Write} {r : Receipt} : s.writer = .waiting →
      s.q.queue = w :: rest → Dict.get? s.q.receipts w.id = some r →
      Does L s (.took w) { s with
        q := { s.q with
          queue := rest
          active := some w.id
          receipts := Dict.set s.q.receipts w.id { r with state := .writing, writtenBytes := none } }
        writer := .taken w }
  | call {s : State} {w : Write} : s.writer = .taken w → Does L s (.called w) { s with writer := .calling w }
  | answer {s : State} {w : Write} {outcome : Outcome} : s.writer = .calling w →
      Does L s (.returned w outcome) { s with writer := .returned w outcome }
  | finish {s : State} {w : Write} {outcome : Outcome} {r : Receipt} : s.writer = .returned w outcome →
      Dict.get? s.q.receipts w.id = some r →
      Does L s (.finished (r.after w outcome)) { s with
        q := { s.q with
          receipts := evict (Dict.set s.q.receipts w.id (r.after w outcome))
          pendingBytes := s.q.pendingBytes - w.raw.length
          active := none }
        writer := .publishing (r.after w outcome) }

theorem Does.refuse {L : Limits} {s : State} (error : InputError) : Does L s (.refused error) s :=
  .silent (.refused error) rfl rfl (.refl _)

theorem Does.idle {L : Limits} {s : State} : Does L s .nothing s := .silent .nothing rfl rfl (.refl _)

/-- What a step needs of the receipts. -/
structure Findable (s : State) : Prop where
  active : s.q.active = s.writer.write?.map Write.id
  nodup : (s.unfinished.map Write.id).Nodup
  found : ∀ w ∈ s.unfinished, ∃ r, Dict.get? s.q.receipts w.id = some r
  writeId : ∀ i r, Dict.get? s.q.receipts i = some r → r.writeId = i

/-- The loop of `close`. -/
structure Cancels (ws : List Write) (q : InputQueue) (c : List Receipt) (q' : InputQueue) : Prop where
  eq : q' = { q with
    queue := []
    pendingBytes := q.pendingBytes - bytes ws
    receipts := q'.receipts }
  ids : c.map Receipt.writeId = ws.map Write.id
  state : ∀ r ∈ c, r.state = .cancelled ∧ r.cancelRequested = true
  stored : ∀ r ∈ c, Dict.get? q'.receipts r.writeId = some r
  others : ∀ i, i ∉ ws.map Write.id → Dict.get? q'.receipts i = Dict.get? q.receipts i
  keys : Dict.keys q'.receipts = Dict.keys q.receipts

theorem cancelQueued_found {ws : List Write} {q : InputQueue} (hnodup : (ws.map Write.id).Nodup)
    (hfound : ∀ w ∈ ws, ∃ r, Dict.get? q.receipts w.id = some r)
    (hid : ∀ i r, Dict.get? q.receipts i = some r → r.writeId = i) :
    ∃ c q', InputQueue.cancelQueued ws q = (some c, q') ∧ Cancels ws q c q' := by
  induction ws generalizing q with
  | nil =>
      refine ⟨[], { q with queue := [] }, rfl, ?_, rfl, by simp, by simp, fun _ _ => rfl, rfl⟩
      rw [bytes_nil, sub_zero]
  | cons w ws ih =>
      obtain ⟨r, hr⟩ := hfound w List.mem_cons_self
      obtain ⟨hw, hws⟩ := List.nodup_cons.mp hnodup
      have hwid : r.cancel.writeId = w.id := hid w.id r hr
      have hkeep : ∀ i, i ≠ w.id →
          Dict.get? (Dict.set q.receipts w.id r.cancel) i = Dict.get? q.receipts i :=
        fun i hi => Dict.get?_set_of_ne (Ne.symm hi) r.cancel
      have hself := Dict.get?_set_self q.receipts w.id r.cancel
      obtain ⟨c, q', hloop, hc⟩ := @ih { q with
          queue := ws
          pendingBytes := q.pendingBytes - w.raw.length
          receipts := Dict.set q.receipts w.id r.cancel } hws
        (fun w' hw' => by
          have hne : w'.id ≠ w.id := fun heq => hw (heq ▸ List.mem_map_of_mem hw')
          exact (hkeep _ hne).symm ▸ hfound w' (List.mem_cons_of_mem _ hw'))
        (fun i r' hr' => by
          by_cases hi : i = w.id
          · rw [hi] at hr' ⊢
            rw [← Option.some.inj (hself.symm.trans hr')]
            exact hwid
          · exact hid i r' ((hkeep i hi).symm.trans hr'))
      refine ⟨r.cancel :: c, q', ?_, ?_, ?_, ?_, ?_, ?_, ?_⟩
      · rw [InputQueue.cancelQueued]
        dsimp only
        rw [hr]
        dsimp only
        rw [hloop]
        rfl
      · refine hc.eq.trans ?_
        rw [bytes_cons, ← sub_sub]
      · rw [List.map_cons, List.map_cons, hc.ids]
        exact congrArg (· :: _) hwid
      · exact List.forall_mem_cons.mpr ⟨⟨rfl, rfl⟩, hc.state⟩
      · refine List.forall_mem_cons.mpr ⟨?_, hc.stored⟩
        rw [hwid, hc.others _ hw]
        exact hself
      · intro i hi
        rw [List.map_cons, List.mem_cons, not_or] at hi
        rw [hc.others i hi.2]
        exact hkeep i hi.1
      · exact hc.keys.trans (Dict.keys_set_of_mem (Dict.mem_keys.mpr ⟨r, Dict.mem_of_get? hr⟩))

theorem close_found {s : State} (hs : Findable s) : ∃ c ρ, s.q.close = (some c, { s.q with
      queue := []
      pendingBytes := s.q.pendingBytes - bytes s.q.queue
      receipts := ρ
      closed := true }) ∧ Closes s.q c ρ := by
  have hnodup := hs.nodup
  rw [State.unfinished, List.map_append, List.nodup_append] at hnodup
  obtain ⟨c, q', hloop, hc⟩ := @cancelQueued_found s.q.queue { s.q with closed := true } hnodup.2.1
    (fun w hw => hs.found w (List.mem_append_right _ hw)) hs.writeId
  have heq := hc.eq
  unfold InputQueue.close
  rw [hloop]
  dsimp only at heq ⊢
  cases hactive : s.q.active with
  | none =>
      refine ⟨c, q'.receipts, ?_, hc.ids, hc.state, hc.stored, fun i r hi => ?_, fun i hi _ => hc.others i hi,
        hc.keys⟩
      · rw [heq, hactive]
      · rw [hactive] at hi
        cases hi
  | some i =>
      rw [hs.active] at hactive
      obtain ⟨w, hw, rfl⟩ := Option.map_eq_some_iff.mp hactive
      have hmem : w ∈ s.unfinished := List.mem_append_left _ (by rw [hw]; exact List.mem_singleton_self w)
      obtain ⟨r, hr⟩ := hs.found w hmem
      have hnot : w.id ∉ s.q.queue.map Write.id := fun hin =>
        hnodup.2.2 w.id (by rw [hw]; exact List.mem_singleton_self _) w.id hin rfl
      have hr' : Dict.get? q'.receipts w.id = some r := (hc.others _ hnot).trans hr
      refine ⟨c, Dict.set q'.receipts w.id r.requestCancel, ?_, hc.ids, hc.state, fun r' hmem' => ?_,
        fun i r' hi hget => ?_, fun i hi hne => ?_, ?_⟩
      · have hactive' : q'.active = some w.id := by rw [heq, hs.active, hw, Option.map_some]
        rw [hactive']
        dsimp only
        rw [hr']
        dsimp only
        rw [heq]
      · have hne : w.id ≠ r'.writeId := fun heq' => hnot (by
          rw [heq', ← hc.ids]
          exact List.mem_map_of_mem hmem')
        rw [Dict.get?_set_of_ne hne]
        exact hc.stored r' hmem'
      · rw [hs.active, hw] at hi
        obtain rfl : w.id = i := Option.some.inj hi
        rw [Dict.get?_set_self, ← Option.some.inj (hr.symm.trans hget)]
      · rw [hs.active, hw] at hne
        rw [Dict.get?_set_of_ne fun heq' => hne (congrArg some heq')]
        exact hc.others i hi
      · exact (Dict.keys_set_of_mem (Dict.mem_keys.mpr ⟨r, Dict.mem_of_get? hr'⟩)).trans hc.keys

/-- **A step does what `Does` lists**, where the receipts are as they are to be. -/
theorem does_of_step {L : Limits} {s s' : State} {m : Move} {reply : Reply} (hs : Findable s)
    (h : step L m s = (reply, s')) : Does L s reply s' := by
  cases m with
  | submit raw callbackFails =>
      dsimp only [step, InputQueue.submit] at h
      by_cases hclosed : s.q.closed = true
      · rw [if_pos hclosed] at h
        obtain ⟨rfl, rfl⟩ := Prod.mk.inj h
        exact .refuse _
      rw [if_neg hclosed] at h
      by_cases hfull : s.q.pendingBytes + raw.length > L.maxBytes ∨
          s.q.queue.length + s.q.active.toList.length ≥ L.maxWrites
      · rw [if_pos hfull] at h
        obtain ⟨rfl, rfl⟩ := Prod.mk.inj h
        exact .refuse _
      rw [if_neg hfull] at h
      obtain ⟨hbytes, hwrites⟩ := not_or.mp hfull
      cases callbackFails with
      | true =>
          obtain ⟨rfl, rfl⟩ := Prod.mk.inj h
          exact .refuse _
      | false =>
          obtain ⟨rfl, rfl⟩ := Prod.mk.inj h
          exact .accept raw (Bool.eq_false_of_not_eq_true hclosed) (not_lt.mp hbytes) (not_le.mp hwrites)
  | close =>
      obtain ⟨c, ρ, hclose, hc⟩ := close_found hs
      dsimp only [step] at h
      rw [hclose] at h
      obtain ⟨rfl, rfl⟩ := Prod.mk.inj h
      exact .close hc
  | publish callbackFails =>
      dsimp only [step] at h
      cases hrest : s.unpublished with
      | nil =>
          rw [hrest] at h
          obtain ⟨rfl, rfl⟩ := Prod.mk.inj h
          exact .idle
      | cons receipt rest =>
          rw [hrest] at h
          obtain ⟨rfl, rfl⟩ := Prod.mk.inj h
          exact .silent (.published receipt) rfl rfl (.refl _)
  | take =>
      dsimp only [step] at h
      by_cases hwriter : s.writer = .waiting
      · rw [hwriter] at h
        cases hqueue : s.q.queue with
        | nil =>
            rw [hqueue] at h
            obtain ⟨rfl, rfl⟩ := Prod.mk.inj h
            split_ifs
            · exact .silent .nothing rfl rfl (by rw [hwriter]; exact ⟨rfl, rfl, rfl, rfl⟩)
            · exact .idle
        | cons w rest =>
            have hmem : w ∈ s.unfinished := List.mem_append_right _ (hqueue ▸ List.mem_cons_self)
            obtain ⟨r, hr⟩ := hs.found w hmem
            rw [hqueue] at h
            unfold InputQueue.take at h
            dsimp only at h
            rw [hr] at h
            obtain ⟨rfl, rfl⟩ := Prod.mk.inj h
            exact .take hwriter hqueue hr
      · have hidle : (Reply.nothing, s) = (reply, s') := by
          rw [← h]
          split
          · exact absurd ‹_› hwriter
          · exact absurd ‹_› hwriter
          · rfl
        obtain ⟨rfl, rfl⟩ := Prod.mk.inj hidle
        exact .idle
  | call =>
      dsimp only [step] at h
      cases hwriter : s.writer with
      | taken w =>
          rw [hwriter] at h
          obtain ⟨rfl, rfl⟩ := Prod.mk.inj h
          exact .call hwriter
      | _ =>
          rw [hwriter] at h
          obtain ⟨rfl, rfl⟩ := Prod.mk.inj h
          exact .idle
  | answer outcome =>
      dsimp only [step] at h
      cases hwriter : s.writer with
      | calling w =>
          rw [hwriter] at h
          obtain ⟨rfl, rfl⟩ := Prod.mk.inj h
          exact .answer hwriter
      | _ =>
          rw [hwriter] at h
          obtain ⟨rfl, rfl⟩ := Prod.mk.inj h
          exact .idle
  | finish =>
      dsimp only [step] at h
      cases hwriter : s.writer with
      | returned w outcome =>
          have hmem : w ∈ s.unfinished :=
            List.mem_append_left _ (by rw [hwriter]; exact List.mem_singleton_self w)
          obtain ⟨r, hr⟩ := hs.found w hmem
          rw [hwriter] at h
          unfold InputQueue.finish at h
          dsimp only at h
          rw [hr] at h
          obtain ⟨rfl, rfl⟩ := Prod.mk.inj h
          exact .finish hwriter hr
      | _ =>
          rw [hwriter] at h
          obtain ⟨rfl, rfl⟩ := Prod.mk.inj h
          exact .idle
  | report callbackFails =>
      dsimp only [step] at h
      cases hwriter : s.writer with
      | publishing receipt =>
          rw [hwriter] at h
          obtain ⟨rfl, rfl⟩ := Prod.mk.inj h
          exact .silent (.published receipt) rfl rfl (by rw [hwriter]; exact ⟨rfl, rfl, rfl, rfl⟩)
      | _ =>
          rw [hwriter] at h
          obtain ⟨rfl, rfl⟩ := Prod.mk.inj h
          exact .idle

/-! ## 2.  The order of the writes -/

theorem gather_silent {α : Type} {f : Reply → List α} {reply : Reply} (hf : f reply = []) (m : Move)
    (h : List (Move × Reply)) : gather f ((m, reply) :: h) = gather f h := by
  rw [gather, hf, List.append_nil]

structure Order (h : List (Move × Reply)) (s : State) : Prop where
  ids : (accepted h).map Write.id = List.range s.nextId
  split : ∃ dropped, accepted h = taken h ++ dropped ++ s.q.queue ∧
    dropped.map Write.id = (cancelled h).map Receipt.writeId
  undropped : s.q.closed = false → cancelled h = []
  emptied : s.q.closed = true → s.q.queue = []
  toCall : taken h = calls h ++ s.writer.toCall.toList
  inCall : calls h = (returns h).map Prod.fst ++ s.writer.inCall.toList
  ended : (returns h).map (fun e => (e.1.id, e.1.finalState e.2)) =
    (finished h).map (fun r => (r.writeId, r.state)) ++
      s.writer.ended?.toList.map fun e => (e.1.id, e.1.finalState e.2)

/-- While the queue is open, every write that was accepted is taken or queued. -/
theorem Order.accepted_open {h : List (Move × Reply)} {s : State} (ho : Order h s)
    (hopen : s.q.closed = false) : accepted h = taken h ++ s.q.queue := by
  obtain ⟨dropped, hsplit, hids⟩ := ho.split
  rw [ho.undropped hopen, List.map_nil, List.map_eq_nil_iff] at hids
  rw [hsplit, hids, List.append_nil]

theorem Order.open_of_queue {h : List (Move × Reply)} {s : State} (ho : Order h s) (hqueue : s.q.queue ≠ []) :
    s.q.closed = false :=
  Bool.eq_false_of_not_eq_true fun hclosed => hqueue (ho.emptied hclosed)

theorem Receipt.after_state (r : Receipt) (w : Write) (outcome : Outcome) :
    (r.after w outcome).state = w.finalState outcome := by
  cases outcome <;> rfl

theorem Receipt.after_writeId (r : Receipt) (w : Write) (outcome : Outcome) :
    (r.after w outcome).writeId = r.writeId := by
  cases outcome <;> rfl

/-- What the queue has, where a step leaves it as it is: the writer's half has to be shown. -/
theorem Order.of_hand {h h' : List (Move × Reply)} {s s' : State} (ho : Order h s)
    (hqueue : s'.q.queue = s.q.queue) (hclosed : s'.q.closed = s.q.closed) (hnext : s'.nextId = s.nextId)
    (haccepted : accepted h' = accepted h) (htaken : taken h' = taken h)
    (hcancelled : cancelled h' = cancelled h)
    (htoCall : taken h = calls h' ++ s'.writer.toCall.toList)
    (hinCall : calls h' = (returns h').map Prod.fst ++ s'.writer.inCall.toList)
    (hended : (returns h').map (fun e => (e.1.id, e.1.finalState e.2)) =
      (finished h').map (fun r => (r.writeId, r.state)) ++
        s'.writer.ended?.toList.map fun e => (e.1.id, e.1.finalState e.2)) : Order h' s' := by
  refine ⟨?_, ?_, ?_, ?_, ?_, hinCall, hended⟩
  · rw [haccepted, hnext]
    exact ho.ids
  · rw [haccepted, htaken, hcancelled, hqueue]
    exact ho.split
  · rw [hclosed, hcancelled]
    exact ho.undropped
  · rw [hclosed, hqueue]
    exact ho.emptied
  · rw [htaken]
    exact htoCall

/-- What the writer has, where a step leaves it as it is: the queue's half has to be shown. -/
theorem Order.of_queue {h h' : List (Move × Reply)} {s s' : State} (ho : Order h s)
    (hhand : SameHand s.writer s'.writer) (htaken : taken h' = taken h) (hcalls : calls h' = calls h)
    (hreturns : returns h' = returns h) (hfinished : finished h' = finished h)
    (hids : (accepted h').map Write.id = List.range s'.nextId)
    (hsplit : ∃ dropped, accepted h' = taken h ++ dropped ++ s'.q.queue ∧
      dropped.map Write.id = (cancelled h').map Receipt.writeId)
    (hundropped : s'.q.closed = false → cancelled h' = []) (hemptied : s'.q.closed = true → s'.q.queue = []) :
    Order h' s' := by
  refine ⟨hids, ?_, hundropped, hemptied, ?_, ?_, ?_⟩
  · rw [htaken]
    exact hsplit
  · rw [htaken, hcalls, hhand.toCall]
    exact ho.toCall
  · rw [hcalls, hreturns, hhand.inCall]
    exact ho.inCall
  · rw [hreturns, hfinished, hhand.ended]
    exact ho.ended

theorem Order.silent {h : List (Move × Reply)} {s s' : State} {m : Move} {reply : Reply} (ho : Order h s)
    (hsilent : Silent reply) (hq : s'.q = s.q) (hnext : s'.nextId = s.nextId)
    (hhand : SameHand s.writer s'.writer) : Order ((m, reply) :: h) s' := by
  have hsame : ∀ {α : Type} (f : Reply → List α), (∀ e, f (.refused e) = []) →
      (∀ r, f (.published r) = []) → f .nothing = [] → gather f ((m, reply) :: h) = gather f h := by
    intro α f hrefused hpublished hnothing
    cases hsilent with
    | refused e => exact gather_silent (hrefused e) m h
    | published r => exact gather_silent (hpublished r) m h
    | nothing => exact gather_silent hnothing m h
  have haccepted : accepted ((m, reply) :: h) = accepted h := hsame _ (fun _ => rfl) (fun _ => rfl) rfl
  have hcancelled : cancelled ((m, reply) :: h) = cancelled h := hsame _ (fun _ => rfl) (fun _ => rfl) rfl
  refine ho.of_queue hhand (hsame _ (fun _ => rfl) (fun _ => rfl) rfl)
    (hsame _ (fun _ => rfl) (fun _ => rfl) rfl) (hsame _ (fun _ => rfl) (fun _ => rfl) rfl)
    (hsame _ (fun _ => rfl) (fun _ => rfl) rfl) ?_ ?_ ?_ ?_
  · rw [haccepted, hnext]
    exact ho.ids
  · rw [haccepted, hcancelled, hq]
    exact ho.split
  · rw [hq, hcancelled]
    exact ho.undropped
  · rw [hq]
    exact ho.emptied

theorem Order.take {h : List (Move × Reply)} {s s' : State} {m : Move} {w : Write} (ho : Order h s)
    (hwriter : s.writer = .waiting) (hqueue : s.q.queue = w :: s'.q.queue)
    (hclosed : s'.q.closed = s.q.closed) (hnext : s'.nextId = s.nextId) (hwriter' : s'.writer = .taken w) :
    Order ((m, .took w) :: h) s' := by
  have hopen := ho.open_of_queue (by rw [hqueue]; exact List.cons_ne_nil w _)
  have hcall := ho.toCall
  have hin := ho.inCall
  have hended := ho.ended
  rw [hwriter] at hcall hin hended
  refine ⟨?_, ⟨[], ?_, ?_⟩, fun _ => ?_, fun hclosed' => ?_, ?_, ?_, ?_⟩
  · rw [hnext, accepted, gather_silent rfl]
    exact ho.ids
  · rw [accepted, gather_silent rfl, taken, gather, List.append_nil, List.append_assoc]
    exact (ho.accepted_open hopen).trans (congrArg (taken h ++ ·) hqueue)
  · rw [cancelled, gather_silent rfl]
    exact (congrArg (List.map Receipt.writeId) (ho.undropped hopen)).symm
  · rw [cancelled, gather_silent rfl]
    exact ho.undropped hopen
  · exact absurd (hclosed.symm.trans hclosed') (by rw [hopen]; exact Bool.false_ne_true)
  · rw [hwriter', calls, gather_silent rfl, taken, gather]
    exact congrArg (· ++ [w]) (hcall.trans (List.append_nil _))
  · rw [hwriter', calls, returns, gather_silent rfl, gather_silent rfl]
    exact hin
  · rw [hwriter', returns, finished, gather_silent rfl, gather_silent rfl]
    exact hended

theorem Order.step {L : Limits} {h : List (Move × Reply)} {s s' : State} {m : Move} {reply : Reply}
    (ho : Order h s) (hid : ∀ i r, Dict.get? s.q.receipts i = some r → r.writeId = i)
    (hd : Does L s reply s') : Order ((m, reply) :: h) s' := by
  have hcall := ho.toCall
  have hin := ho.inCall
  have hended := ho.ended
  cases hd with
  | silent hsilent hq hnext hhand => exact ho.silent hsilent hq hnext hhand
  | accept raw hopen hbytes hwrites =>
      refine ho.of_queue (sameHand_started s.writer) (gather_silent rfl m h) (gather_silent rfl m h)
        (gather_silent rfl m h) (gather_silent rfl m h) ?_ ⟨[], ?_, ?_⟩ (fun _ => ?_) (fun hclosed => ?_)
      · rw [accepted, gather, List.map_append, List.range_succ]
        exact congrArg (· ++ [s.nextId]) ho.ids
      · rw [List.append_nil, ← List.append_assoc]
        exact congrArg (· ++ [⟨s.nextId, raw⟩]) (ho.accepted_open hopen)
      · rw [cancelled, gather_silent rfl]
        exact (congrArg (List.map Receipt.writeId) (ho.undropped hopen)).symm
      · rw [cancelled, gather_silent rfl]
        exact ho.undropped hopen
      · exact absurd hclosed (by rw [hopen]; exact Bool.false_ne_true)
  | @close c ρ hc =>
      obtain ⟨dropped, hsplit, hids⟩ := ho.split
      refine ho.of_queue (.refl s.writer) (gather_silent rfl m h) (gather_silent rfl m h)
        (gather_silent rfl m h) (gather_silent rfl m h) ?_ ⟨dropped ++ s.q.queue, ?_, ?_⟩
        (fun hopen => Bool.noConfusion hopen) (fun _ => rfl)
      · rw [accepted, gather_silent rfl]
        exact ho.ids
      · rw [accepted, gather_silent rfl, List.append_nil, ← List.append_assoc]
        exact hsplit
      · rw [cancelled, gather, List.map_append, List.map_append, hids, hc.ids]
        rfl
  | take hwriter hqueue hr => exact ho.take hwriter hqueue rfl rfl rfl
  -- the other three steps leave the queue as it is: the writer moves on with its write
  | @call w hwriter =>
      rw [hwriter] at hcall hin hended
      refine ho.of_hand rfl rfl rfl (gather_silent rfl m h) (gather_silent rfl m h)
        (gather_silent rfl m h) ?_ ?_ ?_
      · rw [calls, gather]
        exact hcall.trans (List.append_nil _).symm
      · rw [returns, gather_silent rfl, calls, gather]
        exact congrArg (· ++ [w]) (hin.trans (List.append_nil _))
      · rw [returns, finished, gather_silent rfl, gather_silent rfl]
        exact hended
  | @answer w outcome hwriter =>
      rw [hwriter] at hcall hin hended
      refine ho.of_hand rfl rfl rfl (gather_silent rfl m h) (gather_silent rfl m h)
        (gather_silent rfl m h) ?_ ?_ ?_
      · rw [calls, gather_silent rfl]
        exact hcall
      · rw [calls, gather_silent rfl, returns, gather, List.map_append]
        exact hin.trans (List.append_nil _).symm
      · rw [finished, gather_silent rfl, returns, gather, List.map_append]
        exact congrArg (· ++ [(w.id, w.finalState outcome)]) (hended.trans (List.append_nil _))
  | @finish w outcome r hwriter hr =>
      rw [hwriter] at hcall hin hended
      refine ho.of_hand rfl rfl rfl (gather_silent rfl m h) (gather_silent rfl m h)
        (gather_silent rfl m h) ?_ ?_ ?_
      · rw [calls, gather_silent rfl]
        exact hcall
      · rw [calls, returns, gather_silent rfl, gather_silent rfl]
        exact hin
      · rw [returns, gather_silent rfl, finished, gather, List.map_append]
        rw [List.map_singleton, r.after_state, r.after_writeId, hid _ _ hr]
        exact hended.trans (List.append_nil _).symm

/-! ## 3.  What is unfinished -/

structure Account (L : Limits) (s : State) : Prop where
  active : s.q.active = s.writer.write?.map Write.id
  pending : s.q.pendingBytes = bytes s.unfinished
  bytes_le : s.q.pendingBytes ≤ L.maxBytes
  writes_le : s.unfinished.length ≤ L.maxWrites

theorem bytes_nonneg (ws : List Write) : 0 ≤ bytes ws := by
  induction ws with
  | nil => exact le_refl 0
  | cons w ws ih =>
      rw [bytes_cons]
      omega

theorem Account.active_length {L : Limits} {s : State} (ha : Account L s) :
    s.q.active.toList.length = s.writer.write?.toList.length := by
  rw [ha.active]
  cases s.writer.write? <;> rfl

theorem Account.step {L : Limits} {s s' : State} {reply : Reply} (ha : Account L s) (hd : Does L s reply s') :
    Account L s' := by
  have hpending := ha.pending
  have hbytes_le := ha.bytes_le
  have hwrites := ha.writes_le
  unfold State.unfinished at hpending hwrites
  rw [bytes_append] at hpending
  rw [List.length_append] at hwrites
  cases hd with
  | silent hsilent hq hnext hhand =>
      have hsame : s'.unfinished = s.unfinished := by rw [State.unfinished, hhand.write, hq, State.unfinished]
      refine ⟨?_, ?_, ?_, ?_⟩
      · rw [hq, hhand.write]
        exact ha.active
      · rw [hq, hsame]
        exact ha.pending
      · rw [hq]
        exact ha.bytes_le
      · rw [hsame]
        exact ha.writes_le
  | accept raw hopen hbytes hfree =>
      have hhand := sameHand_started s.writer
      rw [ha.active_length] at hfree
      refine ⟨?_, ?_, hbytes, ?_⟩
      · rw [hhand.write]
        exact ha.active
      · rw [State.unfinished, hhand.write, bytes_append, bytes_append, bytes_cons, bytes_nil]
        dsimp only
        omega
      · rw [State.unfinished, hhand.write, List.length_append, List.length_append, List.length_singleton]
        omega
  | close hc =>
      have hqueue := bytes_nonneg s.q.queue
      refine ⟨ha.active, ?_, ?_, ?_⟩
      · rw [State.unfinished, List.append_nil]
        dsimp only
        omega
      · dsimp only
        omega
      · rw [State.unfinished, List.append_nil]
        dsimp only
        omega
  | take hwriter hqueue hr =>
      rw [hwriter, hqueue] at hpending hwrites
      exact ⟨rfl, hpending.trans (zero_add _), hbytes_le, (zero_add _).symm.trans_le hwrites⟩
  | call hwriter =>
      rw [hwriter] at hpending hwrites
      refine ⟨?_, by rw [State.unfinished, bytes_append]; exact hpending, hbytes_le,
        by rw [State.unfinished, List.length_append]; exact hwrites⟩
      rw [ha.active, hwriter]
      rfl
  | answer hwriter =>
      rw [hwriter] at hpending hwrites
      refine ⟨?_, by rw [State.unfinished, bytes_append]; exact hpending, hbytes_le,
        by rw [State.unfinished, List.length_append]; exact hwrites⟩
      rw [ha.active, hwriter]
      rfl
  | @finish w outcome r hwriter hr =>
      rw [hwriter] at hpending hwrites
      have hone : bytes (Writer.returned w outcome).write?.toList = w.raw.length := by
        rw [Writer.write?, Option.toList_some, bytes_cons, bytes_nil, add_zero]
      rw [hone] at hpending
      refine ⟨rfl, ?_, ?_, ?_⟩
      · rw [State.unfinished]
        change s.q.pendingBytes - w.raw.length = bytes s.q.queue
        omega
      · change s.q.pendingBytes - w.raw.length ≤ L.maxBytes
        omega
      · change s.q.queue.length ≤ L.maxWrites
        omega

/-! ## 4.  The receipts -/

structure Shelf (h : List (Move × Reply)) (s : State) : Prop where
  keys : Dict.keys s.q.receipts <:+ List.range s.nextId
  writeId : ∀ i r, Dict.get? s.q.receipts i = some r → r.writeId = i
  kept : ∀ w ∈ s.unfinished, ∃ r, Dict.get? s.q.receipts w.id = some r ∧
    r.acceptedBytes = w.raw.length ∧ r.state ∉ finalStates
  stored : ∀ i r, Dict.get? s.q.receipts i = some r → i ∉ s.unfinished.map Write.id → r ∈ finals h
  settled : (List.range s.nextId).Perm ((finals h).map Receipt.writeId ++ s.unfinished.map Write.id)
  final : ∀ r ∈ finals h, r.state ∈ finalStates

theorem Shelf.wf {h : List (Move × Reply)} {s : State} (hs : Shelf h s) : Dict.WF s.q.receipts :=
  hs.keys.sublist.nodup List.nodup_range

theorem Shelf.nodup {h : List (Move × Reply)} {s : State} (hs : Shelf h s) :
    ((finals h).map Receipt.writeId ++ s.unfinished.map Write.id).Nodup :=
  hs.settled.nodup List.nodup_range

theorem Shelf.findable {L : Limits} {h : List (Move × Reply)} {s : State} (hs : Shelf h s)
    (ha : Account L s) : Findable s where
  active := ha.active
  nodup := (List.nodup_append.mp hs.nodup).2.1
  found w hw := by
    obtain ⟨r, hr, -⟩ := hs.kept w hw
    exact ⟨r, hr⟩
  writeId := hs.writeId

theorem Shelf.lt_of_get? {h : List (Move × Reply)} {s : State} (hs : Shelf h s) {i : Nat} {r : Receipt}
    (hr : Dict.get? s.q.receipts i = some r) : i < s.nextId :=
  List.mem_range.mp (hs.keys.subset (Dict.mem_keys.mpr ⟨r, Dict.mem_of_get? hr⟩))

theorem Write.finalState_mem (w : Write) (outcome : Outcome) : w.finalState outcome ∈ finalStates := by
  cases outcome with
  | ok written =>
      rw [finalState]
      split_ifs
      · exact .head _
      · exact .tail _ (.head _)
  | error error => exact .tail _ (.tail _ (.head _))

/-- What is left of the receipts was there before. -/
theorem get?_of_evict {d : List (Nat × Receipt)} (hd : Dict.WF d) {i : Nat} {r : Receipt}
    (hr : Dict.get? (evict d) i = some r) : Dict.get? d i = some r :=
  hd.get?_eq_some_iff.mpr (List.mem_of_mem_drop (Dict.mem_of_get? hr))

/-- The newest receipts are left. -/
theorem get?_evict {d : List (Nat × Receipt)} (hd : Dict.WF d) {ids all : List Nat} (hids : ids <:+ all)
    (hkeys : Dict.keys d <:+ all) (hlen : ids.length ≤ 128) {i : Nat} (hi : i ∈ ids) {r : Receipt}
    (hr : Dict.get? d i = some r) : Dict.get? (evict d) i = some r := by
  have hsuffix : Dict.keys (evict d) <:+ Dict.keys d := by
    unfold evict Dict.keys
    rw [List.map_drop]
    exact List.drop_suffix _ _
  have hmem : i ∈ Dict.keys (evict d) := by
    by_cases hmany : d.length ≤ 128
    · unfold evict
      rw [Nat.sub_eq_zero_of_le hmany, List.drop_zero]
      exact Dict.mem_keys.mpr ⟨r, Dict.mem_of_get? hr⟩
    · have hlength : (Dict.keys (evict d)).length = 128 := by
        rw [Dict.keys, List.length_map, evict, List.length_drop]
        omega
      have hle : ids.length ≤ (Dict.keys (evict d)).length := by rw [hlength]; exact hlen
      exact (List.suffix_of_suffix_length_le hids (hsuffix.trans hkeys) hle).subset hi
  obtain ⟨r', hr'⟩ := Dict.mem_keys.mp hmem
  have hwf : Dict.WF (evict d) := hd.sublist (List.drop_sublist _ _)
  have hget := hwf.get?_eq_some_iff.mpr hr'
  rw [hget, ← get?_of_evict hd hget, hr]

theorem finals_silent {reply : Reply} (hsilent : Silent reply) (m : Move) (h : List (Move × Reply)) :
    finals ((m, reply) :: h) = finals h := by
  cases hsilent with
  | refused e => exact gather_silent rfl m h
  | published r => exact gather_silent rfl m h
  | nothing => exact gather_silent rfl m h

/-- A step that leaves the receipts and the unfinished writes as they are. -/
theorem Shelf.same {h h' : List (Move × Reply)} {s s' : State} (hs : Shelf h s)
    (hreceipts : s'.q.receipts = s.q.receipts) (hnext : s'.nextId = s.nextId)
    (hunfinished : s'.unfinished = s.unfinished) (hfinals : finals h' = finals h) : Shelf h' s' where
  keys := by rw [hreceipts, hnext]; exact hs.keys
  writeId := by rw [hreceipts]; exact hs.writeId
  kept := by rw [hreceipts, hunfinished]; exact hs.kept
  stored := by rw [hreceipts, hunfinished, hfinals]; exact hs.stored
  settled := by rw [hnext, hunfinished, hfinals]; exact hs.settled
  final := by rw [hfinals]; exact hs.final

theorem Shelf.accept {h : List (Move × Reply)} {s : State} {m : Move} (hs : Shelf h s)
    (raw : List UInt8) {s' : State}
    (hreceipts : s'.q.receipts = Dict.set s.q.receipts s.nextId (Write.receipt ⟨s.nextId, raw⟩))
    (hnext : s'.nextId = s.nextId + 1) (hunfinished : s'.unfinished = s.unfinished ++ [⟨s.nextId, raw⟩]) :
    Shelf ((m, .accepted ⟨s.nextId, raw⟩) :: h) s' := by
  have hnew : s.nextId ∉ Dict.keys s.q.receipts := fun hmem =>
    absurd (List.mem_range.mp (hs.keys.subset hmem)) (lt_irrefl _)
  have hold : ∀ {i : Nat} {r : Receipt}, Dict.get? s.q.receipts i = some r →
      Dict.get? s'.q.receipts i = some r := fun {i r} hr => by
    rw [hreceipts, Dict.get?_set_of_ne (Nat.ne_of_gt (hs.lt_of_get? hr)), hr]
  have hcases : ∀ {i : Nat} {r : Receipt}, Dict.get? s'.q.receipts i = some r →
      (i = s.nextId ∧ r = Write.receipt ⟨s.nextId, raw⟩) ∨ Dict.get? s.q.receipts i = some r := by
    intro i r hr
    rw [hreceipts] at hr
    by_cases hi : i = s.nextId
    · rw [hi, Dict.get?_set_self] at hr
      exact .inl ⟨hi, (Option.some.inj hr).symm⟩
    · rw [Dict.get?_set_of_ne (Ne.symm hi)] at hr
      exact .inr hr
  refine ⟨?_, fun i r hr => ?_, fun w hw => ?_, fun i r hr hi => ?_, ?_, ?_⟩
  · rw [hreceipts, hnext, Dict.set_of_notMem hnew, Dict.keys_append, List.range_succ]
    exact List.suffix_append_inj_of_length_eq rfl |>.mpr ⟨hs.keys, rfl⟩
  · rcases hcases hr with ⟨rfl, rfl⟩ | hr
    · rfl
    · exact hs.writeId i r hr
  · rw [hunfinished, List.mem_append, List.mem_singleton] at hw
    rcases hw with hw | rfl
    · obtain ⟨r, hr, hkept⟩ := hs.kept w hw
      exact ⟨r, hold hr, hkept⟩
    · refine ⟨_, by rw [hreceipts, Dict.get?_set_self], rfl, ?_⟩
      show ReceiptState.queued ∉ finalStates
      decide
  · rw [hunfinished, List.map_append, List.mem_append, not_or] at hi
    rw [finals, gather_silent rfl]
    rcases hcases hr with ⟨rfl, -⟩ | hr
    · exact absurd (List.mem_singleton_self _) hi.2
    · exact hs.stored i r hr hi.1
  · rw [finals, gather_silent rfl, hnext, hunfinished, List.range_succ, List.map_append, ← List.append_assoc]
    exact hs.settled.append_right _
  · rw [finals, gather_silent rfl]
    exact hs.final

theorem Shelf.close {L : Limits} {h : List (Move × Reply)} {s : State} {m : Move} {c : List Receipt}
    {ρ : List (Nat × Receipt)} (hs : Shelf h s) (ha : Account L s) (hc : Closes s.q c ρ) {s' : State}
    (hreceipts : s'.q.receipts = ρ) (hnext : s'.nextId = s.nextId)
    (hunfinished : s'.unfinished = s.writer.write?.toList) : Shelf ((m, .closed c) :: h) s' := by
  have hids : s.unfinished.map Write.id = s.q.active.toList ++ s.q.queue.map Write.id := by
    rw [State.unfinished, List.map_append, ha.active]
    cases s.writer.write? <;> rfl
  have hactive : s'.unfinished.map Write.id = s.q.active.toList := by
    rw [hunfinished, ha.active]
    cases s.writer.write? <;> rfl
  -- a receipt that is stored now was cancelled, or is that of the active write, or stood there before
  have hcases : ∀ {i : Nat} {r : Receipt}, Dict.get? ρ i = some r →
      (r ∈ c ∧ r.writeId = i) ∨
        (∃ r', s.q.active = some i ∧ Dict.get? s.q.receipts i = some r' ∧ r = r'.requestCancel) ∨
          (i ∉ s.unfinished.map Write.id ∧ Dict.get? s.q.receipts i = some r) := by
    intro i r hr
    by_cases hqueue : i ∈ s.q.queue.map Write.id
    · rw [← hc.ids] at hqueue
      obtain ⟨r', hr', rfl⟩ := List.mem_map.mp hqueue
      obtain rfl := Option.some.inj ((hc.stored r' hr').symm.trans hr)
      exact .inl ⟨hr', rfl⟩
    by_cases hact : s.q.active = some i
    · have hmem : i ∈ Dict.keys s.q.receipts := hc.keys ▸ Dict.mem_keys.mpr ⟨r, Dict.mem_of_get? hr⟩
      obtain ⟨r', hr'⟩ := Dict.mem_keys.mp hmem
      have hget := hs.wf.get?_eq_some_iff.mpr hr'
      exact .inr (.inl ⟨r', hact, hget, Option.some.inj (hr.symm.trans (hc.active i r' hact hget))⟩)
    · refine .inr (.inr ⟨?_, (hc.others i hqueue hact).symm.trans hr⟩)
      rw [hids, List.mem_append, not_or]
      exact ⟨fun hmem => hact (Option.mem_toList.mp hmem), hqueue⟩
  refine ⟨?_, fun i r hr => ?_, fun w hw => ?_, fun i r hr hi => ?_, ?_, ?_⟩
  · rw [hreceipts, hnext, hc.keys]
    exact hs.keys
  · rw [hreceipts] at hr
    rcases hcases hr with ⟨-, hid⟩ | ⟨r', -, hr', rfl⟩ | ⟨-, hr'⟩
    · exact hid
    · exact hs.writeId i r' hr'
    · exact hs.writeId i r hr'
  · rw [hunfinished] at hw
    have hact : s.q.active = some w.id := by
      rw [ha.active, Option.mem_toList.mp hw]
      rfl
    obtain ⟨r, hr, hbytes, -⟩ := hs.kept w (List.mem_append_left _ hw)
    refine ⟨r.requestCancel, by rw [hreceipts]; exact hc.active _ _ hact hr, hbytes, ?_⟩
    show ReceiptState.cancelRequested ∉ finalStates
    decide
  · rw [hreceipts] at hr
    rw [hactive] at hi
    rw [finals, gather]
    rcases hcases hr with ⟨hmem, -⟩ | ⟨r', hact, -, -⟩ | ⟨hnot, hr'⟩
    · exact List.mem_append_right _ hmem
    · exact absurd (Option.mem_toList.mpr hact) hi
    · exact List.mem_append_left _ (hs.stored i r hr' hnot)
  · rw [finals, gather, hnext, hactive, List.map_append]
    refine hs.settled.trans ?_
    rw [hids, List.append_assoc]
    refine List.Perm.append_left _ ?_
    rw [← hc.ids]
    exact List.perm_append_comm
  · rw [finals, gather]
    intro r hr
    rcases List.mem_append.mp hr with hr | hr
    · exact hs.final r hr
    · rw [(hc.state r hr).1]
      decide

theorem Shelf.take {h : List (Move × Reply)} {s : State} {m : Move} (hs : Shelf h s) {w : Write} {r : Receipt}
    (hr : Dict.get? s.q.receipts w.id = some r) (hw : w ∈ s.unfinished) {s' : State}
    (hreceipts : s'.q.receipts =
      Dict.set s.q.receipts w.id { r with state := .writing, writtenBytes := none })
    (hnext : s'.nextId = s.nextId) (hunfinished : s'.unfinished = s.unfinished) :
    Shelf ((m, .took w) :: h) s' := by
  refine ⟨?_, fun i r' hr' => ?_, fun w' hw' => ?_, fun i r' hr' hi => ?_, ?_, ?_⟩
  · rw [hreceipts, hnext, Dict.keys_set_of_mem (Dict.mem_keys.mpr ⟨r, Dict.mem_of_get? hr⟩)]
    exact hs.keys
  · rw [hreceipts] at hr'
    by_cases hi : i = w.id
    · rw [hi, Dict.get?_set_self] at hr'
      rw [← Option.some.inj hr', hi]
      exact hs.writeId _ r hr
    · rw [Dict.get?_set_of_ne (Ne.symm hi)] at hr'
      exact hs.writeId i r' hr'
  · rw [hunfinished] at hw'
    obtain ⟨r', hr', hbytes, hstate⟩ := hs.kept w' hw'
    rw [hreceipts]
    by_cases hi : w'.id = w.id
    · rw [hi] at hr' ⊢
      obtain rfl := Option.some.inj (hr'.symm.trans hr)
      refine ⟨_, Dict.get?_set_self _ _ _, hbytes, ?_⟩
      show ReceiptState.writing ∉ finalStates
      decide
    · exact ⟨r', (Dict.get?_set_of_ne (Ne.symm hi) _).trans hr', hbytes, hstate⟩
  · rw [hunfinished] at hi
    rw [hreceipts, Dict.get?_set_of_ne fun heq : w.id = i => hi (heq ▸ List.mem_map_of_mem hw)] at hr'
    rw [finals, gather_silent rfl]
    exact hs.stored i r' hr' hi
  · rw [finals, gather_silent rfl, hnext, hunfinished]
    exact hs.settled
  · rw [finals, gather_silent rfl]
    exact hs.final

/-- The queued writes are the newest ones. -/
theorem Order.queue_suffix {h : List (Move × Reply)} {s : State} (ho : Order h s) :
    s.q.queue.map Write.id <:+ List.range s.nextId := by
  by_cases hqueue : s.q.queue = []
  · rw [hqueue]
    exact List.nil_suffix
  · rw [← ho.ids, ho.accepted_open (ho.open_of_queue hqueue), List.map_append]
    exact List.suffix_append _ _

theorem Shelf.finish {L : Limits} (hmax : L.maxWrites ≤ 129) {h : List (Move × Reply)} {s : State} {m : Move}
    (hs : Shelf h s) (ho : Order h s) (ha : Account L s) {w : Write} {outcome : Outcome} {r : Receipt}
    (hwriter : s.writer = .returned w outcome) (hr : Dict.get? s.q.receipts w.id = some r) {s' : State}
    (hreceipts : s'.q.receipts = evict (Dict.set s.q.receipts w.id (r.after w outcome)))
    (hnext : s'.nextId = s.nextId) (hunfinished : s'.unfinished = s.q.queue) :
    Shelf ((m, .finished (r.after w outcome)) :: h) s' := by
  have hsplit : s.unfinished = w :: s.q.queue := by
    rw [State.unfinished, hwriter]
    rfl
  have hnodup := (List.nodup_append.mp hs.nodup).2.1
  rw [hsplit, List.map_cons, List.nodup_cons] at hnodup
  have hkeys : Dict.keys (Dict.set s.q.receipts w.id (r.after w outcome)) = Dict.keys s.q.receipts :=
    Dict.keys_set_of_mem (Dict.mem_keys.mpr ⟨r, Dict.mem_of_get? hr⟩)
  have hwf : Dict.WF (Dict.set s.q.receipts w.id (r.after w outcome)) := hs.wf.set _ _
  have hlength : (s.q.queue.map Write.id).length ≤ 128 := by
    have hwrites := ha.writes_le
    rw [hsplit, List.length_cons] at hwrites
    rw [List.length_map]
    omega
  have hwid : (r.after w outcome).writeId = w.id := (r.after_writeId w outcome).trans (hs.writeId _ r hr)
  -- a receipt that is stored now is the one that became final, or stood there before
  have hcases : ∀ {i : Nat} {r' : Receipt}, Dict.get? s'.q.receipts i = some r' →
      (i = w.id ∧ r' = r.after w outcome) ∨ (i ≠ w.id ∧ Dict.get? s.q.receipts i = some r') := by
    intro i r' hr'
    rw [hreceipts] at hr'
    replace hr' := get?_of_evict hwf hr'
    by_cases hi : i = w.id
    · rw [hi, Dict.get?_set_self] at hr'
      exact .inl ⟨hi, (Option.some.inj hr').symm⟩
    · rw [Dict.get?_set_of_ne (Ne.symm hi)] at hr'
      exact .inr ⟨hi, hr'⟩
  refine ⟨?_, fun i r' hr' => ?_, fun w' hw' => ?_, fun i r' hr' hi => ?_, ?_, ?_⟩
  · rw [hreceipts, hnext]
    refine List.IsSuffix.trans ?_ hs.keys
    rw [← hkeys, Dict.keys, Dict.keys, evict, List.map_drop]
    exact List.drop_suffix _ _
  · rcases hcases hr' with ⟨rfl, rfl⟩ | ⟨-, hr'⟩
    · exact hwid
    · exact hs.writeId i r' hr'
  · rw [hunfinished] at hw'
    obtain ⟨r', hr', hkept⟩ := hs.kept w' (by rw [hsplit]; exact List.mem_cons_of_mem _ hw')
    have hne : w.id ≠ w'.id := fun heq => hnodup.1 (heq ▸ List.mem_map_of_mem hw')
    refine ⟨r', ?_, hkept⟩
    rw [hreceipts]
    exact get?_evict hwf ho.queue_suffix (hkeys ▸ hs.keys) hlength (List.mem_map_of_mem hw')
      ((Dict.get?_set_of_ne hne _).trans hr')
  · rw [hunfinished] at hi
    rw [finals, gather]
    rcases hcases hr' with ⟨-, rfl⟩ | ⟨hne, hr'⟩
    · exact List.mem_append_right _ (List.mem_singleton_self _)
    · refine List.mem_append_left _ (hs.stored i r' hr' ?_)
      rw [hsplit, List.map_cons, List.mem_cons, not_or]
      exact ⟨hne, hi⟩
  · have hsettled := hs.settled
    rw [hsplit, List.map_cons, ← List.singleton_append, ← List.append_assoc] at hsettled
    rw [finals, gather, hnext, hunfinished, List.map_append, List.map_singleton, hwid]
    exact hsettled
  · rw [finals, gather]
    intro r' hr'
    rcases List.mem_append.mp hr' with hr' | hr'
    · exact hs.final r' hr'
    · rw [List.mem_singleton.mp hr', r.after_state]
      exact w.finalState_mem outcome

theorem Shelf.step {L : Limits} (hmax : L.maxWrites ≤ 129) {h : List (Move × Reply)} {s s' : State} {m : Move}
    {reply : Reply} (hs : Shelf h s) (ho : Order h s) (ha : Account L s) (hd : Does L s reply s') :
    Shelf ((m, reply) :: h) s' := by
  cases hd with
  | silent hsilent hq hnext hhand =>
      refine hs.same (by rw [hq]) hnext ?_ (finals_silent hsilent m h)
      rw [State.unfinished, hhand.write, hq, State.unfinished]
  | accept raw hopen hbytes hfree =>
      refine hs.accept raw rfl rfl ?_
      rw [State.unfinished, (sameHand_started s.writer).write, ← List.append_assoc, State.unfinished]
  | close hc => exact hs.close ha hc rfl rfl (List.append_nil _)
  | @take w rest r hwriter hqueue hr =>
      have hsame : s.unfinished = w :: rest := by
        rw [State.unfinished, hwriter, hqueue]
        rfl
      exact hs.take hr (by rw [hsame]; exact List.mem_cons_self) rfl rfl hsame.symm
  | call hwriter =>
      refine hs.same rfl rfl ?_ (gather_silent rfl m h)
      rw [State.unfinished, State.unfinished, hwriter]
      rfl
  | answer hwriter =>
      refine hs.same rfl rfl ?_ (gather_silent rfl m h)
      rw [State.unfinished, State.unfinished, hwriter]
      rfl
  | finish hwriter hr =>
      refine hs.finish hmax ho ha hwriter hr ?_ rfl rfl
      dsimp only

/-! ## 5.  What closing marks -/

structure Marks (h : List (Move × Reply)) (s : State) : Prop where
  cancelled : ∀ r ∈ cancelled h, r.state = .cancelled ∧ r.cancelRequested = true
  active : s.q.closed = true → ∀ w, s.writer.write? = some w →
    ∃ r, Dict.get? s.q.receipts w.id = some r ∧ r.state = .cancelRequested ∧ r.cancelRequested = true

/-- A step that leaves the queue as it is, and the write with the writer. -/
theorem Marks.same {h h' : List (Move × Reply)} {s s' : State} (hm : Marks h s) (hq : s'.q = s.q)
    (hwrite : s'.writer.write? = s.writer.write?)
    (hcancelled : ExecutionHosts.cancelled h' = ExecutionHosts.cancelled h) : Marks h' s' where
  cancelled := by rw [hcancelled]; exact hm.cancelled
  active := by rw [hq, hwrite]; exact hm.active

theorem Marks.step {L : Limits} {h : List (Move × Reply)} {s s' : State} {m : Move} {reply : Reply}
    (hm : Marks h s) (ho : Order h s) (hs : Findable s) (hd : Does L s reply s') :
    Marks ((m, reply) :: h) s' := by
  cases hd with
  | silent hsilent hq hnext hhand =>
      refine hm.same hq hhand.write ?_
      cases hsilent with
      | refused e => exact gather_silent rfl m h
      | published r => exact gather_silent rfl m h
      | nothing => exact gather_silent rfl m h
  | accept raw hopen hbytes hfree =>
      refine ⟨?_, fun hclosed => absurd (hopen.symm.trans hclosed) Bool.false_ne_true⟩
      rw [ExecutionHosts.cancelled, gather_silent rfl]
      exact hm.cancelled
  | @close c ρ hc =>
      refine ⟨fun r hr => ?_, fun _ w hw => ?_⟩
      · rw [ExecutionHosts.cancelled, gather] at hr
        exact (List.mem_append.mp hr).elim (hm.cancelled r) (hc.state r)
      · have hactive : s.q.active = some w.id := by
          rw [hs.active, hw]
          rfl
        obtain ⟨r, hr⟩ := hs.found w (List.mem_append_left _ (Option.mem_toList.mpr hw))
        exact ⟨r.requestCancel, hc.active _ _ hactive hr, rfl, rfl⟩
  | take hwriter hqueue hr =>
      -- a queue that is closed has no write to take
      have hopen := ho.open_of_queue (by rw [hqueue]; exact List.cons_ne_nil _ _)
      refine ⟨?_, fun hclosed => absurd (hopen.symm.trans hclosed) Bool.false_ne_true⟩
      rw [ExecutionHosts.cancelled, gather_silent rfl]
      exact hm.cancelled
  | call hwriter => exact hm.same rfl (by rw [hwriter]; rfl) (gather_silent rfl m h)
  | answer hwriter => exact hm.same rfl (by rw [hwriter]; rfl) (gather_silent rfl m h)
  | finish hwriter hr =>
      refine ⟨?_, fun _ w hw => by cases hw⟩
      rw [ExecutionHosts.cancelled, gather_silent rfl]
      exact hm.cancelled

theorem Receipt.after_cancelRequested (r : Receipt) (w : Write) (outcome : Outcome) :
    (r.after w outcome).cancelRequested = r.cancelRequested := by
  cases outcome <;> rfl

/-- A call that ends after the queue is closed leaves the mark on the receipt. -/
theorem Marks.finished {L : Limits} {h : List (Move × Reply)} {s s' : State} {r : Receipt} (hm : Marks h s)
    (hclosed : s.q.closed = true) (hd : Does L s (.finished r) s') : r.cancelRequested = true := by
  cases hd with
  | silent hsilent => cases hsilent
  | @finish w outcome r₀ hwriter hr =>
      obtain ⟨r', hr', -, hmark⟩ := hm.active hclosed w (by rw [hwriter]; rfl)
      rw [Receipt.after_cancelRequested, Option.some.inj (hr.symm.trans hr')]
      exact hmark

/-! ## 6.  Delivery -/

theorem run_good {L : Limits} (hmax : L.maxWrites ≤ 129) {h : List (Move × Reply)} {s : State}
    (hrun : (machine L).Run h s) : Order h s ∧ Account L s ∧ Shelf h s ∧ Marks h s := by
  refine hrun.invariant (I := fun h s => Order h s ∧ Account L s ∧ Shelf h s ∧ Marks h s) ⟨?_, ?_, ?_, ?_⟩ ?_
  · exact ⟨rfl, ⟨[], rfl, rfl⟩, fun _ => rfl, fun _ => rfl, rfl, rfl, rfl⟩
  · exact ⟨rfl, rfl, Int.natCast_nonneg _, Nat.zero_le _⟩
  · refine ⟨List.suffix_rfl, fun i r hr => ?_, fun w hw => ?_, fun i r hr => ?_, List.Perm.refl [], ?_⟩
    · cases hr
    · cases hw
    · cases hr
    · exact List.forall_mem_nil _
  · exact ⟨List.forall_mem_nil _, fun hclosed => Bool.noConfusion hclosed⟩
  · rintro h s m reply s' - ⟨ho, ha, hs, hm⟩ hstep
    have hfind := hs.findable ha
    have hd := does_of_step hfind hstep
    exact ⟨ho.step hs.writeId hd, ha.step hd, hs.step hmax ho ha hd, hm.step ho hfind hd⟩

/-- What holds of a queue after a run: the writes reach the runtime in their order, one at a time; the counts
are right; and each accepted write is unfinished, with its receipt stored, or has one final receipt.  Closing
cancels the writes that were not taken, and marks the receipt of the one that was. -/
structure Delivered (L : Limits) (h : List (Move × Reply)) (s : State) : Prop where
  distinct : ((accepted h).map Write.id).Nodup
  order : calls h <+: accepted h
  oneAtATime : calls h = (returns h).map Prod.fst ++ s.writer.inCall.toList
  active : s.q.active = s.writer.write?.map Write.id
  pending : s.q.pendingBytes = bytes s.unfinished
  bytes_le : s.q.pendingBytes ≤ L.maxBytes
  writes_le : s.unfinished.length ≤ L.maxWrites
  settled : ((accepted h).map Write.id).Perm ((finals h).map Receipt.writeId ++ s.unfinished.map Write.id)
  final : ∀ r ∈ finals h, r.state ∈ finalStates
  ended : (returns h).map (fun e => (e.1.id, e.1.finalState e.2)) =
    (finished h).map (fun r => (r.writeId, r.state)) ++
      s.writer.ended?.toList.map fun e => (e.1.id, e.1.finalState e.2)
  uncalled : ∀ r ∈ cancelled h, r.writeId ∉ (taken h).map Write.id
  cancelled : ∀ r ∈ cancelled h, r.state = .cancelled ∧ r.cancelRequested = true
  marked : s.q.closed = true → ∀ i, s.q.active = some i →
    ∃ r, Dict.get? s.q.receipts i = some r ∧ r.state = .cancelRequested ∧ r.cancelRequested = true
  kept : ∀ w ∈ s.unfinished, ∃ r, Dict.get? s.q.receipts w.id = some r ∧
    r.acceptedBytes = w.raw.length ∧ r.state ∉ finalStates
  stored : ∀ i r, Dict.get? s.q.receipts i = some r → i ∉ s.unfinished.map Write.id → r ∈ finals h

theorem delivered {L : Limits} {h : List (Move × Reply)} {s : State} (ho : Order h s) (ha : Account L s)
    (hs : Shelf h s) (hm : Marks h s) : Delivered L h s := by
  obtain ⟨dropped, hsplit, hids⟩ := ho.split
  have hnodup : ((accepted h).map Write.id).Nodup := by
    rw [ho.ids]
    exact List.nodup_range
  refine ⟨hnodup, ?_, ho.inCall, ha.active, ha.pending, ha.bytes_le, ha.writes_le, ?_, hs.final, ho.ended, ?_,
    hm.cancelled, fun hclosed i hi => ?_, hs.kept, hs.stored⟩
  · rw [hsplit, ho.toCall, List.append_assoc, List.append_assoc]
    exact List.prefix_append _ _
  · rw [ho.ids]
    exact hs.settled
  · intro r hr hmem
    rw [hsplit, List.map_append, List.map_append, hids] at hnodup
    exact (List.nodup_append.mp (List.nodup_append.mp hnodup).1).2.2 _ hmem _ (List.mem_map_of_mem hr) rfl
  · rw [ha.active] at hi
    obtain ⟨w, hw, rfl⟩ := Option.map_eq_some_iff.mp hi
    exact hm.active hclosed w hw

theorem gather_append {α : Type} (f : Reply → List α) (later h : List (Move × Reply)) :
    gather f (later ++ h) = gather f h ++ gather f later := by
  induction later with
  | nil => exact (List.append_nil _).symm
  | cons e later ih => rw [List.cons_append, gather, gather, ih, List.append_assoc]

/-- Steps that any thread takes. -/
def anyStep : List (Move × Reply) → State → Move → Prop := fun _ _ _ => True

theorem run_extend {L : Limits} {h later : List (Move × Reply)} {s s' : State} (hrun : (machine L).Run h s)
    (hext : (machine L).Extends anyStep h s later s') : (machine L).Run (later ++ h) s' :=
  (hrun.runWhere.extend hext).run

/-- Once the queue is closed, no write is taken from it. -/
theorem taken_closed {L : Limits} (hmax : L.maxWrites ≤ 129) {h later : List (Move × Reply)} {s s' : State}
    (hrun : (machine L).Run h s) (hclosed : s.q.closed = true)
    (hext : (machine L).Extends anyStep h s later s') : s'.q.closed = true ∧ taken later = [] := by
  refine hext.invariant (I := fun later s' => s'.q.closed = true ∧ taken later = []) ⟨hclosed, rfl⟩ ?_
  rintro later s₁ m reply s₂ hext₁ ⟨hclosed₁, hnone⟩ - hstep
  obtain ⟨ho, ha, hs, -⟩ := run_good hmax (run_extend hrun hext₁)
  have hd := does_of_step (hs.findable ha) hstep
  have hempty := ho.emptied hclosed₁
  cases hd with
  | silent hsilent hq hnext hhand =>
      refine ⟨by rw [hq]; exact hclosed₁, ?_⟩
      cases hsilent with
      | refused e => exact (gather_silent rfl m later).trans hnone
      | published r => exact (gather_silent rfl m later).trans hnone
      | nothing => exact (gather_silent rfl m later).trans hnone
  | accept raw hopen hbytes hfree => exact absurd (hopen.symm.trans hclosed₁) Bool.false_ne_true
  | close hc => exact ⟨rfl, (gather_silent rfl m later).trans hnone⟩
  | take hwriter hqueue hr => exact absurd (hempty.symm.trans hqueue) (List.cons_ne_nil _ _).symm
  | call hwriter => exact ⟨hclosed₁, (gather_silent rfl m later).trans hnone⟩
  | answer hwriter => exact ⟨hclosed₁, (gather_silent rfl m later).trans hnone⟩
  | finish hwriter hr => exact ⟨hclosed₁, (gather_silent rfl m later).trans hnone⟩

/-- Once the queue is closed, a receipt that becomes final says that cancelling was asked for. -/
theorem finished_closed {L : Limits} (hmax : L.maxWrites ≤ 129) {h later : List (Move × Reply)} {s s' : State}
    (hrun : (machine L).Run h s) (hclosed : s.q.closed = true)
    (hext : (machine L).Extends anyStep h s later s') : ∀ r ∈ finished later, r.cancelRequested = true := by
  refine hext.invariant (I := fun later _ => ∀ r ∈ finished later, r.cancelRequested = true)
    (List.forall_mem_nil _) ?_
  rintro later s₁ m reply s₂ hext₁ hmarked - hstep
  obtain ⟨-, ha, hs, hm⟩ := run_good hmax (run_extend hrun hext₁)
  have hd := does_of_step (hs.findable ha) hstep
  have hclosed₁ := (taken_closed hmax hrun hclosed hext₁).1
  rw [finished, gather]
  intro r hr
  rcases List.mem_append.mp hr with hr | hr
  · exact hmarked r hr
  · cases reply with
    | finished receipt =>
        rw [List.mem_singleton.mp hr]
        exact hm.finished hclosed₁ hd
    | _ => exact absurd hr List.not_mem_nil

/-- A final receipt stays as it is for as long as it is stored. -/
theorem final_unchanged {L : Limits} (hmax : L.maxWrites ≤ 129) {h later : List (Move × Reply)} {s s' : State}
    (hrun : (machine L).Run h s) (hext : (machine L).Extends anyStep h s later s') {r r' : Receipt}
    (hr : r ∈ finals h) (hr' : Dict.get? s'.q.receipts r.writeId = some r') : r' = r := by
  obtain ⟨-, -, hs, -⟩ := run_good hmax (run_extend hrun hext)
  have hmem : r ∈ finals (later ++ h) := by
    rw [finals, gather_append]
    exact List.mem_append_left _ hr
  obtain ⟨hnodup, -, hdisjoint⟩ := List.nodup_append.mp hs.nodup
  have hnot : r.writeId ∉ s'.unfinished.map Write.id := fun hin =>
    hdisjoint _ (List.mem_map_of_mem hmem) _ hin rfl
  exact List.inj_on_of_nodup_map hnodup (hs.stored _ _ hr' hnot) hmem (hs.writeId _ _ hr')

/-- A submission that raises leaves the queue as it is. -/
theorem refused_unchanged {L : Limits} {s s' : State} {raw : List UInt8} {callbackFails : Bool}
    {e : InputError} (h : step L (.submit raw callbackFails) s = (.refused e, s')) : s' = s := by
  dsimp only [step] at h
  cases hsubmit : s.q.submit L ⟨s.nextId, raw⟩ callbackFails with
  | error error =>
      rw [hsubmit] at h
      exact (Prod.mk.inj h).2.symm
  | ok q =>
      rw [hsubmit] at h
      cases (Prod.mk.inj h).1

/-- **Accepted input is delivered in order and accounted for**, in every run: after a write has been taken its
call may come when the queue is closed already, but none is taken then. -/
theorem input_delivered {L : Limits} (hmax : L.maxWrites ≤ 129) {h : List (Move × Reply)} {s : State}
    (hrun : (machine L).Run h s) :
    Delivered L h s ∧
      (∀ later s', (machine L).Extends anyStep h s later s' →
        (s.q.closed = true → taken later = [] ∧ ∀ r ∈ finished later, r.cancelRequested = true) ∧
          ∀ r ∈ finals h, ∀ r', Dict.get? s'.q.receipts r.writeId = some r' → r' = r) ∧
      ∀ (raw : List UInt8) (callbackFails : Bool) (e : InputError) (s' : State),
        step L (.submit raw callbackFails) s = (.refused e, s') → s' = s := by
  obtain ⟨ho, ha, hs, hm⟩ := run_good hmax hrun
  refine ⟨delivered ho ha hs hm, fun later s' hext => ⟨fun hclosed => ?_, fun r hr r' hr' => ?_⟩,
    fun raw callbackFails e s' hstep => refused_unchanged hstep⟩
  · exact ⟨(taken_closed hmax hrun hclosed hext).2, finished_closed hmax hrun hclosed hext⟩
  · exact final_unchanged hmax hrun hext hr hr'

/-- A write that is delivered before the queue is closed. -/
def oneWrite : List Move := [.submit [0x61] false, .take, .call, .answer (.ok 1), .finish, .close]

theorem input_delivered_one :
    Delivered {} ((machine {}).exec ([], {}) oneWrite).1 ((machine {}).exec ([], {}) oneWrite).2 :=
  (input_delivered (by decide) (Machine.Run.exec (Machine.Run.start (M := machine {})) oneWrite)).1

/-- More writes than there is room for receipts. -/
def manyWrites : List Move :=
  [.submit [] false, .take] ++ List.replicate 129 (.submit [] false) ++ [.call, .answer (.ok 0), .finish]

theorem manyWrites_evicted :
    Dict.get? ((machine ⟨1, 130⟩).exec ([], (machine ⟨1, 130⟩).start) manyWrites).2.q.receipts 1 = none ∧
      ⟨1, []⟩ ∈ ((machine ⟨1, 130⟩).exec ([], (machine ⟨1, 130⟩).start) manyWrites).2.unfinished := by
  decide +kernel

/-- A write is taken, the queue is closed, and then the runtime is called; and where 130 writes may be
pending, the receipt of one of them is evicted. -/
theorem call_after_close :
    (¬ ∀ (L : Limits) (h later : List (Move × Reply)) (s s' : State), (machine L).Run h s →
      s.q.closed = true → (machine L).Extends anyStep h s later s' → calls later = []) ∧
    ¬ ∀ (L : Limits) (h : List (Move × Reply)) (s : State), (machine L).Run h s →
      ∀ w ∈ s.unfinished, ∃ r, Dict.get? s.q.receipts w.id = some r := by
  constructor
  · intro hnone
    have hrun := Machine.Run.exec (Machine.Run.start (M := machine {})) [.submit [0x61] false, .take, .close]
    have hcalls := hnone {} _ _ _ _ hrun (by decide)
      (Machine.Extends.exec .refl [.call] fun _ _ _ _ => trivial)
    exact absurd hcalls (by decide)
  · intro hkept
    have hrun := Machine.Run.exec (Machine.Run.start (M := machine ⟨1, 130⟩)) manyWrites
    obtain ⟨r, hr⟩ := hkept _ _ _ hrun _ manyWrites_evicted.2
    rw [manyWrites_evicted.1] at hr
    cases hr

theorem mapM_isSome {α β : Type} {f : α → Option β} {as : List α} (h : ∀ a ∈ as, (f a).isSome) :
    (as.mapM f).isSome := by
  induction as with
  | nil => rfl
  | cons a as ih =>
      obtain ⟨b, hb⟩ := Option.isSome_iff_exists.mp (h a List.mem_cons_self)
      obtain ⟨bs, hbs⟩ := Option.isSome_iff_exists.mp (ih fun a ha => h a (List.mem_cons_of_mem _ ha))
      rw [List.mapM_cons, hb, hbs]
      rfl

/-- Asking for the status finds every receipt. -/
theorem status_found {L : Limits} (hmax : L.maxWrites ≤ 129) {h : List (Move × Reply)} {s : State}
    (hrun : (machine L).Run h s) : s.q.status.isSome := by
  obtain ⟨-, ha, hs, -⟩ := run_good hmax hrun
  refine mapM_isSome fun i hi => ?_
  rcases List.mem_append.mp (List.mem_eraseDups.mp (List.mem_of_mem_take hi)) with hactive | hkey
  · rw [Option.mem_toList, ha.active] at hactive
    obtain ⟨w, hw, rfl⟩ := Option.map_eq_some_iff.mp hactive
    obtain ⟨r, hr, -⟩ := hs.kept w (List.mem_append_left _ (Option.mem_toList.mpr hw))
    rw [hr]
    rfl
  · obtain ⟨r, hr⟩ := Dict.mem_keys.mp (List.mem_reverse.mp hkey)
    rw [hs.wf.get?_eq_some_iff.mpr hr]
    rfl

end ExecutionHosts
end VariantOne
