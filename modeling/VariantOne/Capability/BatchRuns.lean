import VariantOne.Capability.BrokerRuns

/-!
# Runs of a batch

A batch starts each of its calls at most once, as an invocation in the context of that call.  In every
run, whatever else the broker does, no more of its invocations are on their way at once than it admitted,
which is one unless every call of the batch is harmless; a batch that admits one starts a call only after
the receipts of all the calls before it (`Disciplined`).

What `invoke_many` returns are the receipts of the invocations of its calls, in the order of the calls
(`receipts_in_order`).

The discipline is an invariant of one batch, and every step is shown to keep it: a step elsewhere leaves
it alone, a call that joins extends it, and a receipt that is stored lets the next call begin.  What a
batch admits at once is computed from its calls before the first one starts.
-/

namespace VariantOne
namespace Capability

variable {β : Type} {B : CapabilityBroker} {s s' : BrokerState β} {op : BrokerOp β}
  {event : BrokerEvent β}

/-! ## 1.  The invocation of a call -/

/-- An invocation of the call of an index. -/
def Batch.Calls (batch : Batch) (index : Nat) (c : Invocation) : Prop :=
  ∃ call, batch.calls[index]? = some call ∧ c.ref = call.ref ∧ c.rawArgs = call.args ∧
    c.context = batch.child index call

/-- A call of a batch has a name. -/
theorem child_named (batch : Batch) (index : Nat) (call : CapabilityCall) (u : BitVec 128) :
    (batch.child index call).named u = batch.child index call := by
  have hname : (batch.child index call).nestedCallId ≠ "" := by
    show (if call.nestedCallId = "" then s!"{batch.batchId}:{index}" else call.nestedCallId) ≠ ""
    split
    · intro h
      have hchars := congrArg String.toList h
      simp at hchars
    · assumption
  unfold InvocationContext.named
  rw [if_neg hname]

/-- What the head of `_invoke_owned` makes of a call. -/
theorem accept_spec {ref : CapabilityRef} {args : Option PyDict} {context : InvocationContext}
    {now : String} {u : BitVec 128} {c : Invocation} (h : B.accept ref args context now u = .ok c) :
    c.ref = ref ∧ c.rawArgs = args.getD [] ∧ c.context = context.named u := by
  unfold CapabilityBroker.accept at h
  simp only [bind, Except.bind] at h
  split at h
  · exact absurd h (by simp)
  · split at h
    · exact absurd h (by simp)
    · obtain rfl := Except.ok.inj h
      exact ⟨rfl, rfl, rfl⟩

/-- A new invocation is one of the call it was started with. -/
theorem invoke_fresh {i : Nat} {ref : CapabilityRef} {args : Option PyDict}
    {context : InvocationContext} {now : String} {u : BitVec 128} (hfresh : s.procs i = none)
    (hnamed : context.named u = context) (h : B.invoke s i ref args context now u = (event, s')) :
    s'.batches = s.batches ∧ ∃ p, s'.procs i = some p ∧ p.call.ref = ref ∧
      p.call.rawArgs = args.getD [] ∧ p.call.context = context := by
  unfold CapabilityBroker.invoke at h
  rw [hfresh] at h
  dsimp only at h
  cases hc : B.accept ref args context now u with
  | error e =>
      rw [hc] at h
      obtain ⟨rfl, rfl⟩ := Prod.mk.inj h
      exact ⟨rfl, _, s.put_self i _, rfl, rfl, rfl⟩
  | ok c =>
      rw [hc] at h
      obtain ⟨href, hargs, hcontext⟩ := accept_spec hc
      rw [hnamed] at hcontext
      dsimp only [BrokerState.accept] at h
      split at h
      · obtain ⟨rfl, rfl⟩ := Prod.mk.inj h
        exact ⟨rfl, _, s.put_self i _, href, hargs, hcontext⟩
      · obtain ⟨rfl, rfl⟩ := Prod.mk.inj h
        exact ⟨rfl, _, if_pos rfl, href, hargs, hcontext⟩

/-! ## 2.  Steps of a batch -/

/-- The batches with one set. -/
def setBatch (s : BrokerState β) (b : Nat) (batch : Batch) : Nat → Option Batch :=
  fun b' => if b' = b then some batch else s.batches b'

/-- Every call may run beside others. -/
def CapabilityBroker.AllHarmless (B : CapabilityBroker) (calls : List CapabilityCall) : Prop :=
  ∀ call ∈ calls, ∃ m, B.classify call = .ok (some m) ∧ m.effectful = false ∧ m.parallelSafe = true

/-- What a step can do to the batches. -/
inductive BatchStepped (B : CapabilityBroker) (s s' : BrokerState β) : Prop
  | same (batches : s'.batches = s.batches)
  | opened (b : Nat) (batch : Batch) (size : 0 < batch.calls.length ∧ batch.calls.length ≤ B.maxBatchCalls)
      (fanout : 0 < batch.admitted ∧ batch.admitted ≤ B.maxFanout)
      (harmless : batch.admitted ≠ 1 → B.AllHarmless batch.calls) (empty : batch.started = [])
      (batches : s'.batches = setBatch s b batch)
  | joined (b : Nat) (batch : Batch) (index i : Nat) (here : s.batches b = some batch)
      (free : s.mayStart batch index = true) (fresh : s.procs i = none)
      (batches : s'.batches = setBatch s b { batch with started := batch.started ++ [(index, i)] })
      (call : ∃ p, s'.procs i = some p ∧ batch.Calls index p.call)

/-- Every call was classified. -/
theorem mapM_classify {calls : List CapabilityCall} {metadata : List (Option CapabilityMetadata)}
    (h : calls.mapM B.classify = .ok metadata) :
    ∀ call ∈ calls, ∃ m ∈ metadata, B.classify call = .ok m := by
  induction calls generalizing metadata with
  | nil => exact fun call hcall => absurd hcall (by simp)
  | cons call calls ih =>
      rw [List.mapM_cons] at h
      cases hm : B.classify call with
      | error e =>
          rw [hm] at h
          exact absurd h (by simp [bind, Except.bind])
      | ok m =>
          cases hms : calls.mapM B.classify with
          | error e =>
              rw [hm, hms] at h
              exact absurd h (by simp [bind, Except.bind])
          | ok ms =>
              rw [hm, hms] at h
              obtain rfl : m :: ms = metadata := by simpa [bind, Except.bind, pure, Except.pure] using h
              intro call' hcall'
              rcases List.mem_cons.mp hcall' with rfl | hcall'
              · exact ⟨m, by simp, hm⟩
              · obtain ⟨m', hmem, hm'⟩ := ih hms call' hcall'
                exact ⟨m', List.mem_cons_of_mem _ hmem, hm'⟩

/-- What a batch admits. -/
theorem concurrency_spec {calls : List CapabilityCall} {metadata : List (Option CapabilityMetadata)}
    (h : calls.mapM B.classify = .ok metadata) (maxConcurrency : Option Int) :
    0 < B.concurrency metadata maxConcurrency ∧ B.concurrency metadata maxConcurrency ≤ B.maxFanout ∧
      (B.concurrency metadata maxConcurrency ≠ 1 → B.AllHarmless calls) := by
  have hfanout : 1 ≤ B.maxFanout := Nat.le_max_left 1 _
  unfold CapabilityBroker.concurrency
  dsimp only
  split
  · rename_i hall
    refine ⟨by omega, by omega, fun _ call hcall => ?_⟩
    obtain ⟨m, hmem, hm⟩ := mapM_classify h call hcall
    have hharmless := List.all_eq_true.mp hall m hmem
    cases m with
    | none => exact absurd hharmless (by simp [harmless])
    | some m => exact ⟨m, hm, by simpa [harmless] using hharmless⟩
  · exact ⟨by omega, hfanout, fun hne => absurd rfl hne⟩

theorem openBatch_steps {b : Nat} {calls : List CapabilityCall} {context : InvocationContext}
    {maxConcurrency : Option Int} {u : BitVec 128}
    (h : B.openBatch s b calls context maxConcurrency u = (event, s')) : BatchStepped B s s' := by
  unfold CapabilityBroker.openBatch at h
  split at h
  · obtain ⟨rfl, rfl⟩ := Prod.mk.inj h
    exact .same rfl
  · split at h
    · obtain ⟨rfl, rfl⟩ := Prod.mk.inj h
      exact .same rfl
    · rename_i hsize
      split at h
      · obtain ⟨rfl, rfl⟩ := Prod.mk.inj h
        exact .same rfl
      · rename_i metadata hmetadata
        obtain ⟨rfl, rfl⟩ := Prod.mk.inj h
        obtain ⟨hpositive, hfanout, hharmless⟩ := concurrency_spec hmetadata maxConcurrency
        rw [not_or] at hsize
        refine .opened b _ ⟨List.length_pos_iff.mpr hsize.1, not_lt.mp hsize.2⟩ ⟨hpositive, hfanout⟩
          hharmless rfl rfl

theorem batchInvoke_steps {b index i : Nat} {now : String} {u : BitVec 128}
    (h : B.batchInvoke s b index i now u = (event, s')) : BatchStepped B s s' := by
  unfold CapabilityBroker.batchInvoke at h
  split at h
  · rename_i batch hb hi
    split at h
    · obtain ⟨rfl, rfl⟩ := Prod.mk.inj h
      exact .same rfl
    · rename_i call hcall
      split at h
      · rename_i hfree
        dsimp only at h
        obtain ⟨hbatches, p, hp, href, hargs, hcontext⟩ := invoke_fresh
          (s := ⟨s.ledger, s.procs, setBatch s b { batch with started := batch.started ++ [(index, i)] }⟩)
          hi (child_named batch index call u) h
        exact .joined b batch index i hb hfree hi hbatches ⟨p, hp, call, hcall, href, hargs, hcontext⟩
      · obtain ⟨rfl, rfl⟩ := Prod.mk.inj h
        exact .same rfl
  · obtain ⟨rfl, rfl⟩ := Prod.mk.inj h
    exact .same rfl

theorem invoke_batches {i : Nat} {ref : CapabilityRef} {args : Option PyDict}
    {context : InvocationContext} {now : String} {u : BitVec 128}
    (h : B.invoke s i ref args context now u = (event, s')) : s'.batches = s.batches := by
  unfold CapabilityBroker.invoke BrokerState.accept at h
  split at h
  · obtain ⟨rfl, rfl⟩ := Prod.mk.inj h
    rfl
  · split at h
    · obtain ⟨rfl, rfl⟩ := Prod.mk.inj h
      rfl
    · split at h
      · obtain ⟨rfl, rfl⟩ := Prod.mk.inj h
        rfl
      · obtain ⟨rfl, rfl⟩ := Prod.mk.inj h
        rfl

theorem advanceAt_batches {i : Nat} (h : B.advanceAt s i op = (event, s')) : s'.batches = s.batches := by
  unfold CapabilityBroker.advanceAt at h
  split at h
  · obtain ⟨rfl, rfl⟩ := Prod.mk.inj h
    rfl
  · split at h
    · obtain ⟨rfl, rfl⟩ := Prod.mk.inj h
      rfl
    · obtain ⟨rfl, rfl⟩ := Prod.mk.inj h
      rfl

theorem persist_batches {i : Nat} {p : Process β} {sinks : List (Option PyException)}
    (h : B.persist s i p sinks = (event, s')) : s'.batches = s.batches := by
  unfold CapabilityBroker.persist CapabilityBroker.store at h
  split at h
  · split at h
    · obtain ⟨rfl, rfl⟩ := Prod.mk.inj h
      rfl
    · obtain ⟨rfl, rfl⟩ := Prod.mk.inj h
      rfl
  · obtain ⟨rfl, rfl⟩ := Prod.mk.inj h
    rfl

theorem recover_batches {i : Nat} {p : Process β} {sinks : List (Option PyException)} {now : String}
    (h : B.recover s i p sinks now = (event, s')) : s'.batches = s.batches := by
  unfold CapabilityBroker.recover CapabilityBroker.store at h
  split at h
  · split at h
    · split at h
      · obtain ⟨rfl, rfl⟩ := Prod.mk.inj h
        rfl
      · obtain ⟨rfl, rfl⟩ := Prod.mk.inj h
        rfl
    · obtain ⟨rfl, rfl⟩ := Prod.mk.inj h
      rfl
  · obtain ⟨rfl, rfl⟩ := Prod.mk.inj h
    rfl

/-- **What a step can do to the batches.** -/
theorem step_batches (h : B.step op s = (event, s')) : BatchStepped B s s' := by
  cases op with
  | invoke i ref args context now u => exact .same (invoke_batches h)
  | batch b calls context maxConcurrency u => exact openBatch_steps h
  | batchInvoke b index i now u => exact batchInvoke_steps h
  | persist i sinks =>
      rw [CapabilityBroker.step] at h
      cases hi : s.procs i with
      | none =>
          rw [hi] at h
          obtain ⟨rfl, rfl⟩ := Prod.mk.inj h
          exact .same rfl
      | some p =>
          rw [hi] at h
          exact .same (persist_batches h)
  | recover i sinks now =>
      rw [CapabilityBroker.step] at h
      cases hi : s.procs i with
      | none =>
          rw [hi] at h
          obtain ⟨rfl, rfl⟩ := Prod.mk.inj h
          exact .same rfl
      | some p =>
          rw [hi] at h
          exact .same (recover_batches h)
  | prepare i probe now attempted => exact .same (advanceAt_batches h)
  | enter i raised now => exact .same (advanceAt_batches h)
  | start i => exact .same (advanceAt_batches h)
  | finish i e => exact .same (advanceAt_batches h)
  | poll i probe elapsedMs => exact .same (advanceAt_batches h)
  | interrupt i e now => exact .same (advanceAt_batches h)
  | collect i cancelling now => exact .same (advanceAt_batches h)
  | settle i e now => exact .same (advanceAt_batches h)

/-! ## 3.  The discipline of a batch -/

/-- An invocation is on its way. -/
def BrokerState.onItsWay (s : BrokerState β) (e : Nat × Nat) : Bool := (s.procs e.2).any Process.active

/-- **The discipline of a batch.** -/
structure Batch.Disciplined (B : CapabilityBroker) (s : BrokerState β) (batch : Batch) : Prop where
  size : 0 < batch.calls.length ∧ batch.calls.length ≤ B.maxBatchCalls
  fanout : 0 < batch.admitted ∧ batch.admitted ≤ B.maxFanout
  harmless : batch.admitted ≠ 1 → B.AllHarmless batch.calls
  members : ∀ e ∈ batch.started, ∃ p, s.procs e.2 = some p ∧ batch.Calls e.1 p.call
  once : Dict.WF batch.started
  bounded : batch.started.countP s.onItsWay ≤ batch.admitted
  dense : batch.admitted = 1 → ∀ e ∈ batch.started, e.1 < batch.started.length
  serial : batch.admitted = 1 → ∀ e ∈ batch.started, ∀ k < e.1, (s.receiptOf batch k).isSome = true

/-- A receipt stays. -/
theorem receiptOf_evolve (hevolves : Evolves s s') {batch : Batch} (index : Nat)
    {r : CapabilityReceipt β} (h : s.receiptOf batch index = some r) :
    s'.receiptOf batch index = some r := by
  unfold BrokerState.receiptOf at h ⊢
  simp only [bind, Option.bind_eq_some_iff] at h ⊢
  obtain ⟨i, hi, p, hp, hr⟩ := h
  obtain ⟨p', hp', -, -, hsame⟩ := hevolves i p hp
  have hdone : p.active = false := by
    unfold Process.reply at hr
    unfold Process.active
    split at hr
    · rename_i hphase
      rw [hphase]
    · exact absurd hr (by simp)
  obtain rfl := hsame hdone
  exact ⟨i, hi, p', hp', hr⟩

/-- Joining another call leaves the receipts of a batch. -/
theorem receiptOf_joined {batch : Batch} {e : Nat × Nat} (index : Nat) {r : CapabilityReceipt β}
    (h : s.receiptOf batch index = some r) :
    s.receiptOf { batch with started := batch.started ++ [e] } index = some r := by
  unfold BrokerState.receiptOf at h ⊢
  simp only [bind, Option.bind_eq_some_iff] at h ⊢
  obtain ⟨i, hi, p, hp, hr⟩ := h
  refine ⟨i, ?_, p, hp, hr⟩
  rw [Dict.get?_append, hi]
  rfl

/-- An invocation that has replied is not on its way. -/
theorem not_onItsWay_of_receipt {batch : Batch} (hwf : Dict.WF batch.started) {e : Nat × Nat}
    (he : e ∈ batch.started) (h : (s.receiptOf batch e.1).isSome = true) : s.onItsWay e = false := by
  obtain ⟨r, hr⟩ := Option.isSome_iff_exists.mp h
  unfold BrokerState.receiptOf at hr
  simp only [bind, Option.bind_eq_some_iff] at hr
  obtain ⟨i, hi, p, hp, hreply⟩ := hr
  rw [(hwf.get?_eq_some_iff (v := e.2)).mpr he] at hi
  obtain rfl := Option.some.inj hi
  unfold BrokerState.onItsWay
  rw [hp]
  unfold Process.reply at hreply
  unfold Process.active
  split at hreply
  · rename_i hphase
    simp [hphase]
  · exact absurd hreply (by simp)

/-- No invocation that had ended is on its way again. -/
theorem onItsWay_evolve (hevolves : Evolves s s') {e : Nat × Nat} (hmember : (s.procs e.2).isSome = true)
    (h : s'.onItsWay e = true) : s.onItsWay e = true := by
  obtain ⟨p, hp⟩ := Option.isSome_iff_exists.mp hmember
  obtain ⟨p', hp', -, -, hsame⟩ := hevolves e.2 p hp
  unfold BrokerState.onItsWay at h ⊢
  rw [hp'] at h
  rw [hp]
  cases hactive : p.active with
  | true => simpa using hactive
  | false =>
      obtain rfl := hsame hactive
      exact h

theorem Batch.Disciplined.count_evolve {batch : Batch} (h : batch.Disciplined B s)
    (hevolves : Evolves s s') :
    batch.started.countP s'.onItsWay ≤ batch.started.countP s.onItsWay := by
  refine List.countP_mono_left fun e he hon => ?_
  obtain ⟨p, hp, -⟩ := h.members e he
  exact onItsWay_evolve hevolves (by rw [hp]; rfl) hon

/-- **A step elsewhere keeps the discipline.** -/
theorem Batch.Disciplined.evolve {batch : Batch} (h : batch.Disciplined B s)
    (hevolves : Evolves s s') : batch.Disciplined B s' where
  size := h.size
  fanout := h.fanout
  harmless := h.harmless
  members e he := by
    obtain ⟨p, hp, hcall⟩ := h.members e he
    obtain ⟨p', hp', hsame, -⟩ := hevolves e.2 p hp
    exact ⟨p', hp', by rw [hsame]; exact hcall⟩
  once := h.once
  bounded := (h.count_evolve hevolves).trans h.bounded
  dense := h.dense
  serial hone e he k hk := by
    obtain ⟨r, hr⟩ := Option.isSome_iff_exists.mp (h.serial hone e he k hk)
    rw [receiptOf_evolve hevolves k hr]
    rfl

/-- **A call that joins keeps the discipline.** -/
theorem Batch.Disciplined.join {batch : Batch} {index i : Nat} (h : batch.Disciplined B s)
    (hevolves : Evolves s s') (hfree : s.mayStart batch index = true)
    (hcall : ∃ p, s'.procs i = some p ∧ batch.Calls index p.call) :
    Batch.Disciplined B s' { batch with started := batch.started ++ [(index, i)] } := by
  have hlast : [(index, i)].countP s'.onItsWay ≤ 1 := List.countP_le_length
  have hold := h.count_evolve hevolves
  have hmembers : ∀ e ∈ batch.started ++ [(index, i)],
      ∃ p, s'.procs e.2 = some p ∧ batch.Calls e.1 p.call := by
    intro e he
    rcases List.mem_append.mp he with he | he
    · exact (h.evolve hevolves).members e he
    · obtain rfl : e = (index, i) := by simpa using he
      exact hcall
  unfold BrokerState.mayStart at hfree
  split at hfree
  · -- One call at a time: those before have replied, so none is on its way.
    rename_i hone
    simp only [Bool.and_eq_true, decide_eq_true_eq, List.all_eq_true, List.mem_range] at hfree
    obtain ⟨rfl, hreplied⟩ := hfree
    have hnone : batch.started.countP s.onItsWay = 0 := by
      refine List.countP_eq_zero.mpr fun e he hon => ?_
      have hoff := not_onItsWay_of_receipt h.once he (hreplied e.1 (h.dense hone e he))
      exact absurd (hon.symm.trans hoff) (by simp)
    have hreplied' : ∀ k < batch.started.length, (s'.receiptOf
        { batch with started := batch.started ++ [(batch.started.length, i)] } k).isSome = true := by
      intro k hk
      obtain ⟨r, hr⟩ := Option.isSome_iff_exists.mp (hreplied k hk)
      rw [receiptOf_joined k (receiptOf_evolve hevolves k hr)]
      rfl
    refine
      { size := h.size
        fanout := h.fanout
        harmless := h.harmless
        members := hmembers
        once := ?_
        bounded := ?_
        dense := fun _ e he => ?_
        serial := fun _ e he k hk => hreplied' k ?_ }
    · unfold Dict.WF
      rw [Dict.keys_append]
      refine List.Nodup.append h.once (by simp) fun x hx hlen => ?_
      obtain ⟨j, hj⟩ := Dict.mem_keys.mp hx
      have hlt := h.dense hone _ hj
      obtain rfl : x = batch.started.length := by simpa using hlen
      exact absurd hlt (lt_irrefl _)
    · show (batch.started ++ [(batch.started.length, i)]).countP s'.onItsWay ≤ batch.admitted
      rw [List.countP_append]
      omega
    · show e.1 < (batch.started ++ [(batch.started.length, i)]).length
      rw [List.length_append, List.length_singleton]
      rcases List.mem_append.mp he with he | he
      · exact (h.dense hone e he).trans (Nat.lt_succ_self _)
      · obtain rfl : e = (batch.started.length, i) := by simpa using he
        exact Nat.lt_succ_self _
    · rcases List.mem_append.mp he with he | he
      · exact hk.trans (h.dense hone e he)
      · obtain rfl : e = (batch.started.length, i) := by simpa using he
        exact hk
  · rename_i hmany
    simp only [Bool.and_eq_true, decide_eq_true_eq, Bool.not_eq_true', List.contains_eq_mem,
      decide_eq_false_iff_not] at hfree
    obtain ⟨hnew, hroom⟩ := hfree
    refine
      { size := h.size
        fanout := h.fanout
        harmless := h.harmless
        members := hmembers
        once := ?_
        bounded := ?_
        dense := fun hone => absurd hone hmany
        serial := fun hone => absurd hone hmany }
    · unfold Dict.WF
      rw [Dict.keys_append]
      refine List.Nodup.append h.once (by simp) fun x hx hindex => ?_
      obtain rfl : x = index := by simpa using hindex
      exact hnew hx
    · show (batch.started ++ [(index, i)]).countP s'.onItsWay ≤ batch.admitted
      have hroom' : batch.started.countP s.onItsWay < batch.admitted := hroom
      rw [List.countP_append]
      omega

/-! ## 4.  Runs -/

/-- Every batch keeps its discipline. -/
def BrokerState.BatchesDisciplined (B : CapabilityBroker) (s : BrokerState β) : Prop :=
  ∀ b batch, s.batches b = some batch → batch.Disciplined B s

/-- A batch that was just opened. -/
theorem disciplined_of_empty {batch : Batch}
    (size : 0 < batch.calls.length ∧ batch.calls.length ≤ B.maxBatchCalls)
    (fanout : 0 < batch.admitted ∧ batch.admitted ≤ B.maxFanout)
    (harmless : batch.admitted ≠ 1 → B.AllHarmless batch.calls) (empty : batch.started = []) :
    batch.Disciplined B s where
  size := size
  fanout := fanout
  harmless := harmless
  members e he := absurd he (by simp [empty])
  once := by
    rw [empty]
    exact List.nodup_nil
  bounded := by simp [empty]
  dense _ e he := absurd he (by simp [empty])
  serial _ e he := absurd he (by simp [empty])

/-- **Every step keeps the discipline of every batch.** -/
theorem BrokerState.BatchesDisciplined.step (h : s.BatchesDisciplined B) (hevolves : Evolves s s')
    (hbatch : BatchStepped B s s') : s'.BatchesDisciplined B := by
  have hset : ∀ {b : Nat} {batch : Batch}, s'.batches = setBatch s b batch → batch.Disciplined B s' →
      s'.BatchesDisciplined B := by
    intro b batch hbatches hdisciplined b' batch' hb'
    rw [hbatches] at hb'
    unfold setBatch at hb'
    split at hb'
    · obtain rfl := Option.some.inj hb'
      exact hdisciplined
    · exact (h b' batch' hb').evolve hevolves
  cases hbatch with
  | same batches => exact fun b batch hb => (h b batch (batches ▸ hb)).evolve hevolves
  | opened b batch size fanout harmless empty batches =>
      exact hset batches (disciplined_of_empty size fanout harmless empty)
  | joined b batch index i here free fresh batches call =>
      exact hset batches ((h b batch here).join hevolves free call)

theorem batchesDisciplined_of_run {h : BrokerHistory β} (hrun : B.machine.Run h s) :
    s.BatchesDisciplined B := by
  refine hrun.invariant (I := fun _ s => s.BatchesDisciplined B) ?_ ?_
  · exact fun b batch hb => absurd hb (by simp [CapabilityBroker.machine, BrokerState.empty])
  · intro h s op event s' hrun hdisciplined hstep
    exact hdisciplined.step ((step_stepped hstep).evolves (brokerInvariant_of_run hrun).sound)
      (step_batches hstep)

/-- Two invocations on their way at once are of a batch that admits more than one. -/
theorem Batch.Disciplined.apart {batch : Batch} (h : batch.Disciplined B s) {e e' : Nat × Nat}
    (he : e ∈ batch.started) (he' : e' ∈ batch.started) (hne : e.1 ≠ e'.1)
    (hon : s.onItsWay e = true) (hon' : s.onItsWay e' = true) : B.AllHarmless batch.calls := by
  refine h.harmless fun hone => ?_
  rcases Nat.lt_or_gt_of_ne hne with hlt | hlt
  · have hoff := not_onItsWay_of_receipt h.once he (h.serial hone e' he' e.1 hlt)
    exact absurd (hon.symm.trans hoff) (by simp)
  · have hoff := not_onItsWay_of_receipt h.once he' (h.serial hone e he e'.1 hlt)
    exact absurd (hon'.symm.trans hoff) (by simp)

/-- The results of a list are those of its items, in order. -/
theorem mapM_getElem? {α γ : Type} {f : α → Option γ} {items : List α} {results : List γ}
    (h : items.mapM f = some results) :
    results.length = items.length ∧
      ∀ (index : Nat) (r : γ), results[index]? = some r → ∃ a, items[index]? = some a ∧ f a = some r := by
  induction items generalizing results with
  | nil =>
      obtain rfl : [] = results := by simpa using h
      exact ⟨rfl, fun index r hr => absurd hr (by simp)⟩
  | cons a items ih =>
      rw [List.mapM_cons] at h
      simp only [bind, Option.bind_eq_some_iff, pure] at h
      obtain ⟨r₀, hr₀, rest, hrest, hresults⟩ := h
      obtain rfl := Option.some.inj hresults
      obtain ⟨hlength, hget⟩ := ih hrest
      refine ⟨by simp [hlength], fun index r hr => ?_⟩
      cases index with
      | zero =>
          obtain rfl : r₀ = r := by simpa using hr
          exact ⟨a, rfl, hr₀⟩
      | succ index => exact hget index r hr

/-- The receipts of a batch are those of the invocations of its calls, in order. -/
theorem Batch.Disciplined.receipts {batch : Batch} (h : batch.Disciplined B s)
    {receipts : List (CapabilityReceipt β)}
    (hreceipts : (List.range batch.calls.length).mapM (s.receiptOf batch) = some receipts) :
    receipts.length = batch.calls.length ∧ ∀ index r, receipts[index]? = some r →
      ∃ i p, (index, i) ∈ batch.started ∧ s.procs i = some p ∧ batch.Calls index p.call ∧
        p.reply = some r := by
  obtain ⟨hlength, hget⟩ := mapM_getElem? hreceipts
  rw [List.length_range] at hlength
  refine ⟨hlength, fun index r hr => ?_⟩
  obtain ⟨k, hk, hof⟩ := hget index r hr
  obtain ⟨_, rfl⟩ := List.getElem?_eq_some_iff.mp hk
  rw [List.getElem_range] at hof
  unfold BrokerState.receiptOf at hof
  simp only [bind, Option.bind_eq_some_iff] at hof
  obtain ⟨i, hi, p, hp, hreply⟩ := hof
  have hmem := Dict.mem_of_get? hi
  obtain ⟨p', hp', hcall⟩ := h.members _ hmem
  obtain rfl := Option.some.inj (hp.symm.trans hp')
  exact ⟨i, p, hmem, hp, hcall, hreply⟩

/-- **A batch keeps its discipline in every run**; two of its invocations are on their way at once only
if all of its calls are harmless; and `invoke_many` returns the receipts of its calls, in order. -/
theorem batches_disciplined {h : BrokerHistory β} (hrun : B.machine.Run h s) {b : Nat} {batch : Batch}
    (hb : s.batches b = some batch) :
    batch.Disciplined B s ∧
      (∀ e ∈ batch.started, ∀ e' ∈ batch.started, e.1 ≠ e'.1 → s.onItsWay e = true →
        s.onItsWay e' = true → B.AllHarmless batch.calls) ∧
      ∀ receipts, s.batchReceipts b = some receipts → receipts.length = batch.calls.length ∧
        ∀ index r, receipts[index]? = some r →
          ∃ i p, (index, i) ∈ batch.started ∧ s.procs i = some p ∧ batch.Calls index p.call ∧
            p.reply = some r := by
  have hdisciplined := batchesDisciplined_of_run hrun b batch hb
  refine ⟨hdisciplined, fun e he e' he' hne hon hon' => hdisciplined.apart he he' hne hon hon',
    fun receipts hreceipts => hdisciplined.receipts ?_⟩
  unfold BrokerState.batchReceipts at hreceipts
  rw [hb] at hreceipts
  exact hreceipts

/-- A batch of two effectful calls, the first of which is on its way. -/
def batchMoves : List (BrokerOp Unit) :=
  [.batch 1 [⟨openRef, [], "a", 0, ""⟩, ⟨openRef, [], "", 0, ""⟩] (openContext "") none 0,
    .batchInvoke 1 0 7 "t0" 0, .batchInvoke 1 1 8 "t0" 0]

def batched : BrokerHistory Unit × BrokerState Unit :=
  openBroker.machine.exec ([], BrokerState.empty) batchMoves

/-- The second call waits for the receipt of the first. -/
example : (batched.2.batches 1).map Batch.started = some [(0, 7)] := by decide +kernel

theorem batches_disciplined_batched : ∃ batch, batched.2.batches 1 = some batch ∧
    batch.Disciplined openBroker batched.2 := by
  have h : (batched.2.batches 1).isSome = true := by decide +kernel
  obtain ⟨batch, hb⟩ := Option.isSome_iff_exists.mp h
  exact ⟨batch, hb, (batches_disciplined (.exec .start batchMoves) hb).1⟩

end Capability
end VariantOne
