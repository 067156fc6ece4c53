import VariantOne.Lib.Machine
import Mathlib.Data.List.Sort
import Mathlib.Data.List.TakeWhile
import Mathlib.Logic.Function.Basic

/-!
# The gate of the local engine

`LLMScheduler` hands one slot round.  A task that finds the engine busy queues a
future and awaits it; `release` completes the future of the next waiter, so the
slot changes hands *before* its new holder runs.  Between the two the waiter can
be cancelled, and a waiter that was cancelled while it queued stays in the heap
until it runs again.

The world is the gate, the futures and where every call of `acquire` stands.  A
call is named by its future: each call creates at most one.  Tasks run between
two awaits without interruption, so a step is what one task does up to its next
await, or one `task.cancel()`.

* `World.Good` is the invariant, `good_of_run` carries it along every run;
* `release_spec` says what a release does to a gate that nobody owns any more;
* `slot_exclusive_fair` is the contract of the gate.
-/

namespace VariantOne
namespace Automation

/-- `Principal`: who a run acts as. -/
structure Principal where
  name : String
  kind : String
  priority : Int
  deriving DecidableEq, Repr

/-- One call of `acquire`, and the future it awaits when it has to queue. -/
abbrev Call := Nat

/-- An `asyncio.Future`. -/
inductive Future
  | pending
  | cancelled
  | finished
  deriving DecidableEq, Repr

/-- `(priority, seq, future, principal)`. -/
structure Waiter where
  priority : Int
  seq : Nat
  fut : Call
  principal : Principal
  deriving DecidableEq, Repr

/-- The order of the heap.  The sequence numbers differ, so the comparison of
two tuples never reaches their futures. -/
def Waiter.Before (a b : Waiter) : Prop :=
  a.priority < b.priority ∨ a.priority = b.priority ∧ a.seq < b.seq

instance : DecidableRel Waiter.Before := fun a b =>
  inferInstanceAs (Decidable (a.priority < b.priority ∨ a.priority = b.priority ∧ a.seq < b.seq))

/-- `LLMScheduler`.  The heap is the list of its entries in the order in which
`heappop` returns them. -/
structure LLMScheduler where
  busy : Bool
  active : Option Principal
  waiters : List Waiter
  seq : Nat
  served : Nat
  deriving DecidableEq, Repr

/-- Where a call of `acquire` stands. -/
inductive Phase
  /-- Not called yet. -/
  | outside
  /-- Parked on `await fut`, with its entry and the task's `_must_cancel`. -/
  | awaiting (entry : Waiter) (mustCancel : Bool)
  /-- Returned, and not released yet. -/
  | holding
  /-- Returned, and released. -/
  | released
  /-- Left by `CancelledError`. -/
  | cancelled
  deriving DecidableEq, Repr

structure World where
  gate : LLMScheduler
  futures : Call → Future
  phase : Call → Phase

/-- What a step may do. -/
inductive Action
  /-- A task calls `acquire`; the flag says that its cancellation was requested
  before it could await anything. -/
  | acquire (c : Call) (principal : Principal) (mustCancel : Bool)
  /-- `task.cancel()` on the task inside this call. -/
  | cancel (c : Call)
  /-- The loop runs the task whose future is done. -/
  | resume (c : Call)
  /-- The holder leaves the block of `slot`. -/
  | release (c : Call)
  deriving DecidableEq, Repr

inductive Outcome
  | ok
  /-- The task is not at the point where it could do that. -/
  | disabled
  /-- `set_result` on a future that is done. -/
  | invalidState
  deriving DecidableEq, Repr

/-- `heapq.heappush`. -/
def heappush (waiters : List Waiter) (w : Waiter) : List Waiter :=
  waiters.orderedInsert Waiter.Before w

namespace World

/-- The call goes on to another phase. -/
def enter (w : World) (c : Call) (p : Phase) : World :=
  { w with phase := Function.update w.phase c p }

/-- The future of the call is created, cancelled or completed. -/
def setFuture (w : World) (c : Call) (f : Future) : World :=
  { w with futures := Function.update w.futures c f }

/-- `release`: entries whose future is cancelled are popped and skipped, the
first other one is handed the slot. -/
def releaseSlot (w : World) : Outcome × World :=
  match w.gate.waiters.dropWhile fun e => w.futures e.fut = .cancelled with
  | [] => (.ok, { w with gate := { w.gate with busy := false, active := none, waiters := [] } })
  | e :: rest =>
      let popped := { w with gate := { w.gate with waiters := rest } }
      if w.futures e.fut = .pending then (.ok, popped.setFuture e.fut .finished)
      else (.invalidState, popped)

/-- `acquire` up to its await. -/
def acquire (w : World) (c : Call) (principal : Principal) (mustCancel : Bool) : World :=
  if w.gate.busy = false then
    { w with
      gate := { w.gate with
        busy := true, active := some principal, served := w.gate.served + 1 } }.enter c .holding
  else
    let entry : Waiter := ⟨principal.priority, w.gate.seq + 1, c, principal⟩
    let queued := { w with
      gate := { w.gate with seq := w.gate.seq + 1, waiters := heappush w.gate.waiters entry } }
    -- A task with `_must_cancel` cancels the future it starts to await.
    (queued.setFuture c (if mustCancel then .cancelled else .pending)).enter c (.awaiting entry false)

/-- `task.cancel()` while the task awaits: a future that is not done is
cancelled, else `CancelledError` waits for the task in `_must_cancel`. -/
def cancel (w : World) (c : Call) (entry : Waiter) : World :=
  if w.futures c = .pending then w.setFuture c .cancelled
  else w.enter c (.awaiting entry true)

/-- The cancelled waiter drops its entry from the heap. -/
def dequeue (w : World) (c : Call) : World :=
  { w with gate := { w.gate with waiters := w.gate.waiters.filter fun e => e.fut ≠ c } }

/-- `acquire` from its await on. -/
def resume (w : World) (c : Call) (entry : Waiter) (mustCancel : Bool) : Outcome × World :=
  match w.futures c with
  | .pending => (.disabled, w)
  | .cancelled => (.ok, (w.dequeue c).enter c .cancelled)
  | .finished =>
      if mustCancel then (w.enter c .cancelled).releaseSlot
      else
        (.ok, { w with
          gate := { w.gate with
            active := some entry.principal, served := w.gate.served + 1 } }.enter c .holding)

/-- One step. -/
def step (a : Action) (w : World) : Outcome × World :=
  match a with
  | .acquire c principal mustCancel =>
      if w.phase c = .outside then (.ok, w.acquire c principal mustCancel) else (.disabled, w)
  | .cancel c =>
      match w.phase c with
      | .awaiting entry _ => (.ok, w.cancel c entry)
      | _ => (.disabled, w)
  | .resume c =>
      match w.phase c with
      | .awaiting entry mustCancel => w.resume c entry mustCancel
      | _ => (.disabled, w)
  | .release c =>
      if w.phase c = .holding then (w.enter c .released).releaseSlot else (.disabled, w)

end World

/-- Tasks over a new gate. -/
def schedulerMachine : Machine World Action Outcome where
  start := ⟨⟨false, none, [], 0, 0⟩, fun _ => .pending, fun _ => .outside⟩
  step := World.step


/-! ## Who holds, who is handed the slot, who waits -/

namespace Waiter

theorem not_before_self (a : Waiter) : ¬ a.Before a := by
  unfold Before
  omega

theorem Before.trans {a b c : Waiter} (hab : a.Before b) (hbc : b.Before c) : a.Before c := by
  unfold Before at *
  omega

end Waiter

namespace World

/-- The call has returned from `acquire` and has not released the slot. -/
def Holds (w : World) (c : Call) : Prop := w.phase c = .holding

/-- The slot was handed to the call, which has not run since. -/
def Handed (w : World) (c : Call) : Prop :=
  (∃ e m, w.phase c = .awaiting e m) ∧ w.futures c = .finished

/-- The entry belongs to an uncancelled waiter. -/
def Waits (w : World) (e : Waiter) : Prop :=
  (∃ m, w.phase e.fut = .awaiting e m) ∧ w.futures e.fut = .pending

/-- The slot is with the call, whether or not it has run since. -/
def Owns (w : World) (c : Call) : Prop := w.Holds c ∨ w.Handed c

/-- The call has the least priority and arrival number of all uncancelled
waiters. -/
def NextWaiter (w : World) (c : Call) : Prop :=
  ∃ e, w.Waits e ∧ e.fut = c ∧ ∀ e', w.Waits e' → e' = e ∨ e.Before e'

/-- The heap and the calls that wait. -/
structure Queue (w : World) : Prop where
  ordered : w.gate.waiters.Pairwise Waiter.Before
  arrived : ∀ e ∈ w.gate.waiters, e.seq ≤ w.gate.seq
  named : ∀ c e m, w.phase c = .awaiting e m → e.fut = c
  parked : ∀ e ∈ w.gate.waiters, (∃ m, w.phase e.fut = .awaiting e m) ∧ w.futures e.fut ≠ .finished
  listed : ∀ e, w.Waits e → e ∈ w.gate.waiters

/-- The invariant: a gate that is free has neither an owner nor a waiter, a busy
one has exactly one owner. -/
structure Good (w : World) : Prop extends Queue w where
  free : w.gate.busy = false → (∀ c, ¬ w.Owns c) ∧ ∀ e, ¬ w.Waits e
  taken : w.gate.busy = true → ∃ c, ∀ c', w.Owns c' ↔ c' = c

variable {w w' : World} {c : Call} {e e' : Waiter} {m : Bool}

@[simp] theorem phase_enter (w : World) (c c' : Call) (p : Phase) :
    (w.enter c p).phase c' = if c' = c then p else w.phase c' := by
  simp [enter, Function.update_apply]

@[simp] theorem gate_enter (w : World) (c : Call) (p : Phase) : (w.enter c p).gate = w.gate := rfl

@[simp] theorem futures_enter (w : World) (c : Call) (p : Phase) :
    (w.enter c p).futures = w.futures := rfl

@[simp] theorem futures_setFuture (w : World) (c c' : Call) (f : Future) :
    (w.setFuture c f).futures c' = if c' = c then f else w.futures c' := by
  simp [setFuture, Function.update_apply]

@[simp] theorem gate_setFuture (w : World) (c : Call) (f : Future) :
    (w.setFuture c f).gate = w.gate := rfl

@[simp] theorem phase_setFuture (w : World) (c : Call) (f : Future) :
    (w.setFuture c f).phase = w.phase := rfl

/-- Two entries of one call are the same. -/
theorem entry_unique {m' : Bool} (h : w.phase c = .awaiting e m) (h' : w.phase c = .awaiting e' m') :
    e = e' := by
  rw [h] at h'
  exact (Phase.awaiting.inj h').1

/-- An entry of the heap belongs to a call that awaits. -/
theorem Queue.fut_ne (hq : w.Queue) (hc : ∀ e m, w.phase c ≠ .awaiting e m) :
    ∀ e ∈ w.gate.waiters, e.fut ≠ c := by
  rintro e he rfl
  obtain ⟨⟨m, hm⟩, -⟩ := hq.parked e he
  exact hc e m hm

/-- A call that leaves the gate, or enters it without waiting. -/
theorem Queue.enter (hq : w.Queue) {p : Phase} (hp : ∀ e m, p ≠ .awaiting e m)
    (hc : ∀ e ∈ w.gate.waiters, e.fut ≠ c) : (w.enter c p).Queue where
  ordered := hq.ordered
  arrived := hq.arrived
  named c' e m h := by
    rw [phase_enter] at h
    split at h
    · exact absurd h (hp e m)
    · exact hq.named c' e m h
  parked e he := by
    rw [phase_enter, if_neg (hc e he)]
    exact hq.parked e he
  listed e he := by
    obtain ⟨⟨m, hm⟩, hpending⟩ := he
    rw [phase_enter] at hm
    split at hm
    · exact absurd hm (hp e m)
    · exact hq.listed e ⟨⟨m, hm⟩, hpending⟩

/-- Calls that do not wait stay out of the queue when they move on. -/
theorem waits_enter {p : Phase} (hp : ∀ e m, p ≠ .awaiting e m)
    (hc : ∀ e m, w.phase c = .awaiting e m → w.futures c ≠ .pending) :
    (w.enter c p).Waits e ↔ w.Waits e := by
  unfold Waits
  rw [futures_enter, phase_enter]
  split
  · rename_i h
    constructor
    · rintro ⟨⟨m, hm⟩, -⟩
      exact absurd hm (hp e m)
    · rintro ⟨⟨m, hm⟩, hpending⟩
      exact absurd hpending (h ▸ hc e m (h ▸ hm))
  · rfl

/-! ## A release -/

/-- The entry a release finds. -/
theorem waiters_split {p : Waiter → Bool} {ws rest : List Waiter} (h : ws.dropWhile p = e :: rest) :
    ws = ws.takeWhile p ++ e :: rest ∧ p e = false := by
  refine ⟨by rw [← h, List.takeWhile_append_dropWhile], ?_⟩
  have hne : ws.dropWhile p ≠ [] := by simp [h]
  simpa [h] using List.head_dropWhile_not p hne

/-- **What a release does** to a busy gate that nobody owns any more: it frees
the gate, or hands the slot to the next waiter. -/
theorem release_spec (hq : w.Queue) (hbusy : w.gate.busy = true) (hnone : ∀ c, ¬ w.Owns c) :
    ∃ w', w.releaseSlot = (.ok, w') ∧ w'.Good ∧ ∀ c, w'.Handed c → w.NextWaiter c := by
  unfold releaseSlot
  cases hdrop : w.gate.waiters.dropWhile fun e => w.futures e.fut = .cancelled with
  | nil =>
      rw [List.dropWhile_eq_nil_iff] at hdrop
      have hwaits : ∀ e, ¬ w.Waits e := fun e he => by
        have := hdrop e (hq.listed e he)
        simp [he.2] at this
      refine ⟨_, rfl, ⟨⟨.nil, by simp, hq.named, by simp, fun e he => absurd he (hwaits e)⟩,
        fun _ => ⟨hnone, hwaits⟩, by simp⟩, fun c hc => absurd (.inr hc) (hnone c)⟩
  | cons e rest =>
      obtain ⟨hsplit, hfut⟩ := waiters_split hdrop
      have hmem : e ∈ w.gate.waiters := by rw [hsplit]; simp
      have hcancelled : ∀ e' ∈ w.gate.waiters.takeWhile fun e => w.futures e.fut = .cancelled,
          w.futures e'.fut = .cancelled := fun e' he' => by
        simpa using List.mem_takeWhile_imp he'
      obtain ⟨⟨m, hphase⟩, hfinished⟩ := hq.parked e hmem
      have hpending : w.futures e.fut = .pending := by
        cases hf : w.futures e.fut with
        | pending => rfl
        | cancelled => simp [hf] at hfut
        | finished => exact absurd hf hfinished
      have hordered : (e :: rest).Pairwise Waiter.Before :=
        hq.ordered.sublist (by rw [hsplit]; exact List.sublist_append_right _ _)
      have hbefore := (List.pairwise_cons.mp hordered).1
      have hrest : ∀ e' ∈ rest, e' ∈ w.gate.waiters := fun e' he' => by rw [hsplit]; simp [he']
      -- Another entry is of another call: the heap is strictly ordered.
      have hother : ∀ e' ∈ rest, e'.fut ≠ e.fut := fun e' he' heq => by
        obtain ⟨⟨m', hm'⟩, -⟩ := hq.parked e' (hrest e' he')
        have := entry_unique hphase (heq ▸ hm')
        exact e.not_before_self (this ▸ hbefore e' he')
      have hfirst : ∀ e', w.Waits e' → e' = e ∨ e' ∈ rest := fun e' he' => by
        have := hq.listed e' he'
        rw [hsplit, List.mem_append, List.mem_cons] at this
        rcases this with h | h
        · exact absurd (hcancelled e' h) (by simp [he'.2])
        · exact h
      have howns : ∀ c, ¬ w.Holds c ∧ ¬ w.Handed c := fun c =>
        ⟨fun h => hnone c (.inl h), fun h => hnone c (.inr h)⟩
      dsimp only
      rw [if_pos hpending]
      refine ⟨_, rfl, ⟨⟨(List.pairwise_cons.mp hordered).2, fun e' he' => hq.arrived e' (hrest e' he'),
        hq.named, fun e' he' => ?_, fun e' he' => ?_⟩, ?_, fun _ => ⟨e.fut, fun c => ?_⟩⟩, ?_⟩
      · refine ⟨(hq.parked e' (hrest e' he')).1, ?_⟩
        rw [futures_setFuture, if_neg (hother e' he')]
        exact (hq.parked e' (hrest e' he')).2
      · obtain ⟨hphase', hfut'⟩ := he'
        have hne : e'.fut ≠ e.fut := fun h => by simp [h] at hfut'
        rw [futures_setFuture, if_neg hne] at hfut'
        rcases hfirst e' ⟨hphase', hfut'⟩ with rfl | h
        · exact absurd rfl hne
        · exact h
      · exact fun h => absurd (hbusy.symm.trans h) (by simp)
      · constructor
        · rintro (h | ⟨hp, hf⟩)
          · exact absurd h (howns c).1
          · by_contra hne
            rw [futures_setFuture, if_neg hne] at hf
            exact (howns c).2 ⟨hp, hf⟩
        · rintro rfl
          exact .inr ⟨⟨e, m, hphase⟩, by simp⟩
      · rintro c ⟨hp, hf⟩
        have hc : c = e.fut := by
          by_contra hne
          rw [futures_setFuture, if_neg hne] at hf
          exact (howns c).2 ⟨hp, hf⟩
        refine ⟨e, ⟨⟨m, hphase⟩, hpending⟩, hc.symm, fun e' he' => ?_⟩
        exact (hfirst e' he').imp id (hbefore e')

/-! ## One step -/

theorem pairwise_heappush {ws : List Waiter} (h : ws.Pairwise Waiter.Before)
    (he : ∀ e' ∈ ws, e'.seq < e.seq) : (heappush ws e).Pairwise Waiter.Before := by
  induction ws with
  | nil => simp [heappush]
  | cons x ws ih =>
      obtain ⟨hx, hws⟩ := List.pairwise_cons.mp h
      have hxe := he x List.mem_cons_self
      unfold heappush at ih ⊢
      rw [List.orderedInsert_cons]
      split
      · rename_i hbefore
        refine List.pairwise_cons.mpr ⟨fun y hy => ?_, h⟩
        rcases List.mem_cons.mp hy with rfl | hy
        · exact hbefore
        · exact hbefore.trans (hx y hy)
      · rename_i hnot
        refine List.pairwise_cons.mpr
          ⟨fun y hy => ?_, ih hws fun e' he' => he e' (List.mem_cons_of_mem _ he')⟩
        rcases (List.mem_orderedInsert _).mp hy with rfl | hy
        · unfold Waiter.Before at *
          omega
        · exact hx y hy

/-- The owners after a call goes on to a phase. -/
theorem owns_enter {p : Phase} (hp : ∀ e m, p ≠ .awaiting e m) {c' : Call} :
    (w.enter c p).Owns c' ↔ if c' = c then p = .holding else w.Owns c' := by
  unfold Owns Holds Handed
  rw [phase_enter, futures_enter]
  split
  · exact ⟨fun h => h.resolve_right fun ⟨⟨e, m, he⟩, _⟩ => hp e m he, .inl⟩
  · rfl

theorem handed_enter {p : Phase} (hp : ∀ e m, p ≠ .awaiting e m) {c' : Call} :
    (w.enter c p).Handed c' ↔ c' ≠ c ∧ w.Handed c' := by
  unfold Handed
  rw [phase_enter, futures_enter]
  split
  · rename_i h
    exact ⟨fun ⟨⟨e, m, he⟩, _⟩ => absurd he (hp e m), fun hne => absurd h hne.1⟩
  · rename_i h
    exact ⟨fun h' => ⟨h, h'⟩, fun h' => h'.2⟩

/-- `acquire`, up to its await. -/
theorem good_acquire (hw : w.Good) (hc : w.phase c = .outside) (p : Principal) (mustCancel : Bool) :
    (w.acquire c p mustCancel).Good ∧ ∀ c', (w.acquire c p mustCancel).Handed c' → w.Handed c' := by
  have houtside : ∀ e m, w.phase c ≠ .awaiting e m := fun e m h => by simp [hc] at h
  have hother := hw.toQueue.fut_ne houtside
  unfold acquire
  split
  · rename_i hbusy
    have hq : Queue { w with gate := { w.gate with
        busy := true, active := some p, served := w.gate.served + 1 } } :=
      ⟨hw.ordered, hw.arrived, hw.named, hw.parked, hw.listed⟩
    refine ⟨⟨hq.enter (by simp) hother, by simp, fun _ => ⟨c, fun c' => ?_⟩⟩, fun c' h => ?_⟩
    · rw [owns_enter (by simp)]
      split
      · simp [*]
      · exact ⟨fun h => absurd h ((hw.free hbusy).1 c'), fun h => absurd h ‹_›⟩
    · exact ((handed_enter (by simp)).mp h).2
  · rename_i hbusy
    rw [Bool.not_eq_false] at hbusy
    obtain ⟨o, ho⟩ := hw.taken hbusy
    have hoc : o ≠ c := by
      rintro rfl
      rcases (ho o).mpr rfl with h | ⟨⟨e, m, h⟩, -⟩
      · exact absurd (hc.symm.trans h) (by simp)
      · exact houtside e m h
    dsimp only
    have hmem {e' : Waiter} := List.mem_orderedInsert (r := Waiter.Before)
      (a := e') (b := ⟨p.priority, w.gate.seq + 1, c, p⟩) (l := w.gate.waiters)
    refine ⟨⟨⟨?_, fun e he => ?_, fun c' e m h => ?_, fun e he => ?_, fun e he => ?_⟩, ?_,
      fun _ => ⟨o, fun c' => ?_⟩⟩, fun c' h => ?_⟩
    · exact pairwise_heappush hw.ordered fun e he => Nat.lt_succ_of_le (hw.arrived e he)
    · rcases hmem.mp he with rfl | he
      · exact Nat.le_refl _
      · exact Nat.le_succ_of_le (hw.arrived e he)
    · rw [phase_enter] at h
      split at h
      · obtain ⟨rfl, -⟩ := Phase.awaiting.inj h
        exact (‹c' = c›).symm
      · exact hw.named c' e m h
    · rcases hmem.mp he with rfl | he
      · refine ⟨⟨false, by simp⟩, ?_⟩
        rw [futures_enter, futures_setFuture, if_pos rfl]
        split <;> simp
      · rw [phase_enter, futures_enter, futures_setFuture, if_neg (hother e he),
          if_neg (hother e he)]
        exact hw.parked e he
    · obtain ⟨⟨m, hm⟩, hpending⟩ := he
      rw [phase_enter] at hm
      rw [futures_enter, futures_setFuture] at hpending
      split at hm
      · obtain ⟨rfl, -⟩ := Phase.awaiting.inj hm
        exact hmem.mpr (.inl rfl)
      · rw [if_neg ‹_›] at hpending
        exact hmem.mpr (.inr (hw.listed e ⟨⟨m, hm⟩, hpending⟩))
    · exact fun h => absurd (hbusy.symm.trans h) (by simp)
    · rw [← ho c']
      unfold Owns Holds Handed
      rw [phase_enter, futures_enter, futures_setFuture]
      split
      · subst c'
        constructor
        · rintro (h | ⟨-, h⟩)
          · simp at h
          · split at h <;> simp at h
        · rintro (h | ⟨⟨e, m, h⟩, -⟩)
          · exact absurd (hc.symm.trans h) (by simp)
          · exact absurd h (houtside e m)
      · rfl
    · obtain ⟨⟨e, m, he⟩, hf⟩ := h
      rw [phase_enter] at he
      rw [futures_enter, futures_setFuture] at hf
      split at he
      · rw [if_pos ‹_›] at hf
        split at hf <;> simp at hf
      · rw [if_neg ‹_›] at hf
        exact ⟨⟨e, m, he⟩, hf⟩

/-- `task.cancel()`. -/
theorem good_cancel (hw : w.Good) (hc : w.phase c = .awaiting e m) :
    (w.cancel c e).Good ∧ ∀ c', (w.cancel c e).Handed c' → w.Handed c' := by
  unfold cancel
  split
  · rename_i hpending
    have hfut {c' : Call} (f : Future) (hf : f ≠ .cancelled) (hf' : f ≠ .pending) :
        (w.setFuture c .cancelled).futures c' = f ↔ w.futures c' = f := by
      rw [futures_setFuture]
      split
      · subst c'
        rw [hpending]
        exact ⟨fun h => absurd h.symm hf, fun h => absurd h.symm hf'⟩
      · rfl
    have howns (c' : Call) : (w.setFuture c .cancelled).Owns c' ↔ w.Owns c' := by
      unfold Owns Handed
      rw [hfut .finished (by simp) (by simp)]
      rfl
    have hwaits {e' : Waiter} (h : (w.setFuture c .cancelled).Waits e') : w.Waits e' := by
      refine ⟨h.1, ?_⟩
      have := h.2
      rw [futures_setFuture] at this
      split at this
      · simp at this
      · exact this
    refine ⟨⟨⟨hw.ordered, hw.arrived, hw.named, fun e' he' => ⟨(hw.parked e' he').1, ?_⟩,
      fun e' he' => hw.listed e' (hwaits he')⟩, fun h => ?_, fun h => ?_⟩, fun c' h => ?_⟩
    · rw [Ne, hfut .finished (by simp) (by simp)]
      exact (hw.parked e' he').2
    · exact ⟨fun c' h' => (hw.free h).1 c' ((howns c').mp h'),
        fun e' h' => (hw.free h).2 e' (hwaits h')⟩
    · obtain ⟨o, ho⟩ := hw.taken h
      exact ⟨o, fun c' => (howns c').trans (ho c')⟩
    · exact ⟨h.1, (hfut .finished (by simp) (by simp)).mp h.2⟩
  · have hawait {c' : Call} {e' : Waiter} : (∃ m', (w.enter c (.awaiting e true)).phase c' = .awaiting e' m') ↔
        ∃ m', w.phase c' = .awaiting e' m' := by
      rw [phase_enter]
      split
      · subst c'
        rw [hc]
        simp
      · rfl
    have hholds (c' : Call) : (w.enter c (.awaiting e true)).Holds c' ↔ w.Holds c' := by
      unfold Holds
      rw [phase_enter]
      split
      · subst c'
        rw [hc]
        simp
      · rfl
    have hhanded (c' : Call) : (w.enter c (.awaiting e true)).Handed c' ↔ w.Handed c' :=
      and_congr (exists_congr fun e' => hawait) Iff.rfl
    have howns (c' : Call) : (w.enter c (.awaiting e true)).Owns c' ↔ w.Owns c' :=
      or_congr (hholds c') (hhanded c')
    have hwaits (e' : Waiter) : (w.enter c (.awaiting e true)).Waits e' ↔ w.Waits e' :=
      and_congr hawait Iff.rfl
    refine ⟨⟨⟨hw.ordered, hw.arrived, fun c' e' m' h => ?_,
      fun e' he' => ⟨hawait.mpr (hw.parked e' he').1, (hw.parked e' he').2⟩,
      fun e' he' => hw.listed e' ((hwaits e').mp he')⟩, fun h => ?_, fun h => ?_⟩, fun c' h => ?_⟩
    · obtain ⟨m', h⟩ := hawait.mp ⟨m', h⟩
      exact hw.named c' e' m' h
    · exact ⟨fun c' h' => (hw.free h).1 c' ((howns c').mp h'),
        fun e' h' => (hw.free h).2 e' ((hwaits e').mp h')⟩
    · obtain ⟨o, ho⟩ := hw.taken h
      exact ⟨o, fun c' => (howns c').trans (ho c')⟩
    · exact (hhanded c').mp h

/-- The owner leaves the gate and releases the slot. -/
theorem good_pass (hw : w.Good) (hc : w.Owns c) {p : Phase} (hp : ∀ e m, p ≠ .awaiting e m)
    (hne : p ≠ .holding) :
    ∃ w', (w.enter c p).releaseSlot = (.ok, w') ∧ w'.Good ∧ ∀ c, w'.Handed c → w.NextWaiter c := by
  have hbusy : w.gate.busy = true := by
    by_contra hfree
    exact (hw.free (by simpa using hfree)).1 c hc
  obtain ⟨o, ho⟩ := hw.taken hbusy
  obtain rfl := (ho c).mp hc
  have hwaiting : ∀ e m, w.phase c = .awaiting e m → w.futures c ≠ .pending := fun e m he => by
    rcases hc with h | ⟨-, h⟩
    · exact absurd (he.symm.trans h) (by simp)
    · simp [h]
  have hother : ∀ e ∈ w.gate.waiters, e.fut ≠ c := by
    rintro e he rfl
    obtain ⟨⟨m, hm⟩, hfinished⟩ := hw.parked e he
    rcases hc with h | ⟨-, h⟩
    · exact absurd (hm.symm.trans h) (by simp)
    · exact hfinished h
  have hnone : ∀ c', ¬ (w.enter c p).Owns c' := fun c' => by
    rw [owns_enter hp]
    split
    · exact hne
    · exact fun h => absurd ((ho c').mp h) ‹_›
  obtain ⟨w', hw', hgood, hnext⟩ := release_spec (hw.toQueue.enter hp hother) hbusy hnone
  refine ⟨w', hw', hgood, fun c' hc' => ?_⟩
  obtain ⟨e, he, hfut, hfirst⟩ := hnext c' hc'
  exact ⟨e, (waits_enter hp hwaiting).mp he, hfut,
    fun e' he' => hfirst e' ((waits_enter hp hwaiting).mpr he')⟩

/-- `acquire`, from its await on. -/
theorem good_resume (hw : w.Good) (hc : w.phase c = .awaiting e m) :
    ∃ r w', w.resume c e m = (r, w') ∧ r ≠ .invalidState ∧ w'.Good ∧
      ∀ c', w'.Handed c' → w.Handed c' ∨ w.NextWaiter c' := by
  unfold resume
  cases hf : w.futures c with
  | pending => exact ⟨_, _, rfl, by simp, hw, fun c' => .inl⟩
  | cancelled =>
      have hnotOwner : ¬ w.Owns c := by
        rintro (h | ⟨-, h⟩)
        · exact absurd (hc.symm.trans h) (by simp)
        · simp [hf] at h
      have hwaits {e' : Waiter} (h : w.Waits e') : e'.fut ≠ c := by
        rintro rfl
        simp [h.2] at hf
      have hmem {e' : Waiter} : e' ∈ (w.dequeue c).gate.waiters ↔ e' ∈ w.gate.waiters ∧ e'.fut ≠ c := by
        simp [dequeue]
      have hq : (w.dequeue c).Queue :=
        ⟨hw.ordered.filter _, fun e' he' => hw.arrived e' (hmem.mp he').1, hw.named,
          fun e' he' => hw.parked e' (hmem.mp he').1,
          fun e' he' => hmem.mpr ⟨hw.listed e' he', hwaits he'⟩⟩
      have howns (c' : Call) : ((w.dequeue c).enter c .cancelled).Owns c' ↔ w.Owns c' := by
        rw [owns_enter (by simp)]
        split
        · subst c'
          simpa using hnotOwner
        · rfl
      have hwaits' (e' : Waiter) : ((w.dequeue c).enter c .cancelled).Waits e' ↔ w.Waits e' :=
        waits_enter (w := w.dequeue c) (by simp) fun e m _ h => absurd (hf.symm.trans h) (by simp)
      refine ⟨_, _, rfl, by simp, ⟨hq.enter (by simp) fun e' he' => (hmem.mp he').2, fun h => ?_,
        fun h => ?_⟩, fun c' h => .inl ((handed_enter (by simp)).mp h).2⟩
      · exact ⟨fun c' h' => (hw.free h).1 c' ((howns c').mp h'),
          fun e' h' => (hw.free h).2 e' ((hwaits' e').mp h')⟩
      · obtain ⟨o, ho⟩ := hw.taken h
        exact ⟨o, fun c' => (howns c').trans (ho c')⟩
  | finished =>
      have howner : w.Owns c := .inr ⟨⟨e, m, hc⟩, hf⟩
      dsimp only
      split
      · obtain ⟨w', hw', hgood, hnext⟩ := good_pass hw howner (p := .cancelled) (by simp) (by simp)
        exact ⟨_, _, hw', by simp, hgood, fun c' h => .inr (hnext c' h)⟩
      · have hbusy : w.gate.busy = true := by
          by_contra hfree
          exact (hw.free (by simpa using hfree)).1 c howner
        obtain ⟨o, ho⟩ := hw.taken hbusy
        obtain rfl := (ho c).mp howner
        have hother : ∀ e ∈ w.gate.waiters, e.fut ≠ c := by
          rintro e' he' rfl
          exact (hw.parked e' he').2 hf
        have hq : Queue { w with gate := { w.gate with
            active := some e.principal, served := w.gate.served + 1 } } :=
          ⟨hw.ordered, hw.arrived, hw.named, hw.parked, hw.listed⟩
        refine ⟨_, _, rfl, by simp, ⟨hq.enter (by simp) hother, fun h => ?_, fun _ => ⟨c, fun c' => ?_⟩⟩,
          fun c' h => .inl ((handed_enter (by simp)).mp h).2⟩
        · exact absurd (hbusy.symm.trans h) (by simp)
        · rw [owns_enter (by simp)]
          split
          · simp [*]
          · exact ho c'

end World

/-- **One step** keeps the invariant, raises nothing, and hands the slot to the
next waiter only. -/
theorem good_step {w w' : World} {a : Action} {r : Outcome} (hw : w.Good)
    (hs : schedulerMachine.step a w = (r, w')) :
    w'.Good ∧ r ≠ .invalidState ∧ ∀ c, w'.Handed c → w.Handed c ∨ w.NextWaiter c := by
  have hsame {r : Outcome} (hr : r ≠ .invalidState) (hs : (r, w) = (r, w')) :
      w'.Good ∧ r ≠ .invalidState ∧ ∀ c, w'.Handed c → w.Handed c ∨ w.NextWaiter c := by
    obtain rfl := (Prod.mk.inj hs).2
    exact ⟨hw, hr, fun c => .inl⟩
  change World.step a w = (r, w') at hs
  unfold World.step at hs
  cases a with
  | acquire c p mustCancel =>
      dsimp only at hs
      split at hs
      · obtain ⟨rfl, rfl⟩ := Prod.mk.inj hs
        obtain ⟨hgood, hhanded⟩ := World.good_acquire hw ‹_› p mustCancel
        exact ⟨hgood, by simp, fun c' h => .inl (hhanded c' h)⟩
      · obtain rfl := (Prod.mk.inj hs).1
        exact hsame (by simp) hs
  | cancel c =>
      dsimp only at hs
      split at hs
      · obtain ⟨rfl, rfl⟩ := Prod.mk.inj hs
        obtain ⟨hgood, hhanded⟩ := World.good_cancel hw ‹_›
        exact ⟨hgood, by simp, fun c' h => .inl (hhanded c' h)⟩
      · obtain rfl := (Prod.mk.inj hs).1
        exact hsame (by simp) hs
  | resume c =>
      dsimp only at hs
      split at hs
      · obtain ⟨r, w₁, hresume, hr, hgood, hhanded⟩ := World.good_resume hw ‹_›
        obtain ⟨rfl, rfl⟩ := Prod.mk.inj (hresume.symm.trans hs)
        exact ⟨hgood, hr, hhanded⟩
      · obtain rfl := (Prod.mk.inj hs).1
        exact hsame (by simp) hs
  | release c =>
      dsimp only at hs
      split at hs
      · rename_i hholds
        obtain ⟨w₁, hrelease, hgood, hnext⟩ :=
          World.good_pass hw (.inl hholds) (p := .released) (by simp) (by simp)
        obtain ⟨rfl, rfl⟩ := Prod.mk.inj (hrelease.symm.trans hs)
        exact ⟨hgood, by simp, fun c' h => .inr (hnext c' h)⟩
      · obtain rfl := (Prod.mk.inj hs).1
        exact hsame (by simp) hs

theorem good_start : schedulerMachine.start.Good := by
  refine ⟨⟨.nil, by simp [schedulerMachine], ?_, by simp [schedulerMachine], ?_⟩, ?_, ?_⟩ <;>
    simp [schedulerMachine, World.Waits, World.Owns, World.Holds, World.Handed]

/-- The invariant holds along every run. -/
theorem good_of_run {h : List (Action × Outcome)} {w : World} (hrun : schedulerMachine.Run h w) :
    w.Good :=
  hrun.invariant (I := fun _ w => w.Good) good_start fun _ _ _ _ _ _ hw hs => (good_step hw hs).1

/-- **The gate is exclusive, fair and never leaks**, whatever the tasks and their
cancellations do: at most one call holds the slot; a gate that nobody holds and
that was handed to nobody is free and has no uncancelled waiter; and whoever is
handed the slot had the least priority and arrival number of those that
waited. -/
theorem slot_exclusive_fair {h : List (Action × Outcome)} {w : World}
    (hrun : schedulerMachine.Run h w) :
    (∀ c c', w.Holds c → w.Holds c' → c = c') ∧
      ((∀ c, ¬ w.Holds c) → (∀ c, ¬ w.Handed c) →
        w.gate.busy = false ∧ (∀ e, ¬ w.Waits e) ∧
          ∀ e ∈ w.gate.waiters, w.futures e.fut = .cancelled) ∧
      ∀ a r w', schedulerMachine.step a w = (r, w') →
        r ≠ .invalidState ∧ ∀ c, w'.Handed c → ¬ w.Handed c → w.NextWaiter c := by
  have hw := good_of_run hrun
  refine ⟨fun c c' hc hc' => ?_, fun hholds hhanded => ?_, fun a r w' hs => ?_⟩
  · cases hbusy : w.gate.busy with
    | false => exact absurd (.inl hc) ((hw.free hbusy).1 c)
    | true =>
        obtain ⟨o, ho⟩ := hw.taken hbusy
        exact ((ho c).mp (.inl hc)).trans ((ho c').mp (.inl hc')).symm
  · have hnone : ∀ c, ¬ w.Owns c := fun c h => h.elim (hholds c) (hhanded c)
    have hbusy : w.gate.busy = false := by
      by_contra htaken
      obtain ⟨o, ho⟩ := hw.taken (by simpa using htaken)
      exact hnone o ((ho o).mpr rfl)
    refine ⟨hbusy, (hw.free hbusy).2, fun e he => ?_⟩
    obtain ⟨hphase, hfinished⟩ := hw.parked e he
    cases hf : w.futures e.fut with
    | pending => exact absurd ⟨hphase, hf⟩ ((hw.free hbusy).2 e)
    | cancelled => rfl
    | finished => exact absurd hf hfinished
  · obtain ⟨-, hr, hnext⟩ := good_step hw hs
    exact ⟨hr, fun c hc hc' => (hnext c hc).resolve_left hc'⟩

/-- Two tasks queue while a third holds the slot; the later one is served first. -/
def contested : List Action :=
  [.acquire 0 ⟨"Automation", "automation", 1⟩ false,
    .acquire 1 ⟨"Inference benchmark", "benchmark", 2⟩ false, .acquire 2 ⟨"You", "chat", 0⟩ false,
    .release 0]

theorem slot_exclusive_fair_contested :
    ∃ h w, schedulerMachine.Run h w ∧ w.Handed 2 ∧ ¬ w.Handed 1 ∧
      ∀ c c', w.Holds c → w.Holds c' → c = c' := by
  have hrun := Machine.Run.exec (.start : schedulerMachine.Run [] _) contested
  refine ⟨_, _, hrun, ⟨⟨_, _, rfl⟩, rfl⟩, fun h => ?_, (slot_exclusive_fair hrun).1⟩
  exact absurd (show Future.pending = .finished from h.2) (by decide)

end Automation
end VariantOne
