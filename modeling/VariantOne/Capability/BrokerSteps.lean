import VariantOne.Capability.Broker
import VariantOne.Lib.Retention

/-!
# What a step of the broker does

`Stepped` says once what a step can do to the invocations and to the ledger; every invariant of the
runs is read off it.  The ledger changes in two ways only: an admission adds an entry under an absent
identity, and a finalization settles the entry of its own invocation.

`Sound` is what an invocation keeps to itself: whether its handler was started agrees with the phase it
is in, and the receipt it is about to store is honest about that (`Honest`).

`prepare_cases` and `advance_spec` are the two lemmas about what the code does; the rest of the module
turns them into what the runs need.  A step that does not belong to an invocation leaves its phase and its
context alone, so `Sound` is checked for the one that moves.
-/

namespace VariantOne
namespace Capability

variable {β : Type} {B : CapabilityBroker}

/-! ## 1.  The invocations of a state -/

@[simp] theorem BrokerState.put_ledger (s : BrokerState β) (i : Nat) (p : Process β) :
    (s.put i p).ledger = s.ledger := rfl

@[simp] theorem BrokerState.put_batches (s : BrokerState β) (i : Nat) (p : Process β) :
    (s.put i p).batches = s.batches := rfl

@[simp] theorem BrokerState.put_self (s : BrokerState β) (i : Nat) (p : Process β) :
    (s.put i p).procs i = some p := if_pos rfl

theorem BrokerState.put_of_ne (s : BrokerState β) {i j : Nat} (p : Process β) (h : j ≠ i) :
    (s.put i p).procs j = s.procs j := if_neg h

/-! ## 2.  Steps -/

/-- An event that tells nothing of an admitted invocation. -/
def BrokerEvent.idle : BrokerEvent β → Bool
  | .quiet | .rejected _ | .raised .. => true
  | .admitted _ | .answered .. | .started .. | .stored .. => false

/-- What a step can do.  The batches are left aside. -/
inductive Stepped (B : CapabilityBroker) (s : BrokerState β) (op : BrokerOp β) :
    BrokerEvent β → BrokerState β → Prop
  /-- Nothing. -/
  | rest {event : BrokerEvent β} {s' : BrokerState β} (idle : event.idle = true)
      (ledger : s'.ledger = s.ledger) (procs : s'.procs = s.procs) : Stepped B s op event s'
  /-- An invocation raises before it is admitted. -/
  | refused {i : Nat} {c : Invocation} {e : PyException} {s' : BrokerState β} (fresh : s.procs i = none)
      (ledger : s'.ledger = s.ledger)
      (procs : s'.procs = (s.put i (c.process (.done (.error e)))).procs) :
      Stepped B s op (.raised i e) s'
  /-- An invocation is answered from the ledger. -/
  | answered {i : Nat} {c : Invocation} {entry : LedgerEntry β} {s' : BrokerState β}
      (fresh : s.procs i = none) (known : Dict.get? s.ledger c.key = some entry)
      (ledger : s'.ledger = s.ledger)
      (procs : s'.procs = (s.put i (c.process (.done (.ok (c.duplicate entry))))).procs) :
      Stepped B s op (.answered i (c.duplicate entry)) s'
  | admitted {i : Nat} {c : Invocation} {s' : BrokerState β} (fresh : s.procs i = none)
      (absent : Dict.get? s.ledger c.key = none)
      (ledger : s'.ledger = s.ledger ++ [(c.key, .admitted c.fingerprint i)])
      (procs : s'.procs = (s.put i (c.process .admitted)).procs) : Stepped B s op (.admitted i) s'
  /-- An invocation goes on. -/
  | advanced {i : Nat} {p p' : Process β} {event : BrokerEvent β} {s' : BrokerState β}
      (here : s.procs i = some p) (goes : B.advance p i op = some (event, p'))
      (ledger : s'.ledger = s.ledger) (procs : s'.procs = (s.put i p').procs) : Stepped B s op event s'
  /-- The sinks interrupt the finalization. -/
  | interrupted {i : Nat} {p : Process β} {receipt : CapabilityReceipt β} {owned : Ownership}
      {after : Option PyException} {e : PyException} {s' : BrokerState β} (here : s.procs i = some p)
      (phase : p.phase = .ending receipt owned after) (ledger : s'.ledger = s.ledger)
      (procs : s'.procs = (s.put i { p with phase := .interrupted owned e }).procs) :
      Stepped B s op .quiet s'
  | stored {i : Nat} {p : Process β} {receipt : CapabilityReceipt β} {owned : Ownership}
      {after : Option PyException} {failures : List String} {s' : BrokerState β}
      (here : s.procs i = some p) (phase : p.phase = .ending receipt owned after)
      (ledger : s'.ledger = storeTerminal B.dedupeCapacity s.ledger p.call.key p.call.fingerprint
        (receipt.afterSinks failures))
      (procs : s'.procs = (s.put i
        { p with phase := .done (replied after (receipt.afterSinks failures)) }).procs) :
      Stepped B s op (.stored i p.call.key (receipt.afterSinks failures)) s'
  /-- The guard of `invoke` stores a receipt. -/
  | recovered {i : Nat} {p : Process β} {owned : Ownership} {e : PyException} {now : String}
      {failures : List String} {after : Option PyException} {s' : BrokerState β}
      (here : s.procs i = some p) (phase : p.phase = .interrupted owned e)
      (ledger : s'.ledger = storeTerminal B.dedupeCapacity s.ledger p.call.key p.call.fingerprint
        ((p.call.interruptedReceipt owned now e).afterSinks failures))
      (procs : s'.procs = (s.put i
        { p with phase := .done (replied after
            ((p.call.interruptedReceipt owned now e).afterSinks failures)) }).procs) :
      Stepped B s op (.stored i p.call.key ((p.call.interruptedReceipt owned now e).afterSinks failures)) s'
  /-- The guard of `invoke` raises. -/
  | gaveUp {i : Nat} {p : Process β} {owned : Ownership} {e e' : PyException} {s' : BrokerState β}
      (here : s.procs i = some p) (phase : p.phase = .interrupted owned e)
      (ledger : s'.ledger = s.ledger)
      (procs : s'.procs = (s.put i { p with phase := .done (.error e') }).procs) :
      Stepped B s op (.raised i e') s'

/-- The head of `invoke`.  The state may have other batches than the one before the step. -/
theorem invoke_stepped {s s₀ s' : BrokerState β} {op : BrokerOp β} {i : Nat} {ref : CapabilityRef}
    {args : Option PyDict} {context : InvocationContext} {now : String} {u : BitVec 128}
    {event : BrokerEvent β} (hledger : s₀.ledger = s.ledger) (hprocs : s₀.procs = s.procs)
    (h : B.invoke s₀ i ref args context now u = (event, s')) : Stepped B s op event s' := by
  have hput : ∀ p : Process β, (s₀.put i p).procs = (s.put i p).procs := fun p => by
    show (fun j => if j = i then some p else s₀.procs j) = fun j => if j = i then some p else s.procs j
    rw [hprocs]
  unfold CapabilityBroker.invoke at h
  cases hi : s₀.procs i with
  | some p =>
      rw [hi] at h
      obtain ⟨rfl, rfl⟩ := Prod.mk.inj h
      exact .rest rfl hledger hprocs
  | none =>
      rw [hi] at h
      have hfresh : s.procs i = none := hprocs ▸ hi
      cases hc : B.accept ref args context now u with
      | error e =>
          rw [hc] at h
          obtain ⟨rfl, rfl⟩ := Prod.mk.inj h
          exact .refused hfresh hledger (hput _)
      | ok c =>
          rw [hc] at h
          dsimp only [BrokerState.accept] at h
          cases hk : Dict.get? s₀.ledger c.key with
          | some entry =>
              rw [hk] at h
              obtain ⟨rfl, rfl⟩ := Prod.mk.inj h
              exact .answered hfresh (hledger ▸ hk) hledger (hput _)
          | none =>
              rw [hk] at h
              obtain ⟨rfl, rfl⟩ := Prod.mk.inj h
              exact .admitted hfresh (hledger ▸ hk)
                (congrArg (· ++ [(c.key, LedgerEntry.admitted c.fingerprint i)]) hledger) (hput _)

theorem advanceAt_stepped {s s' : BrokerState β} {op : BrokerOp β} {i : Nat} {event : BrokerEvent β}
    (h : B.advanceAt s i op = (event, s')) : Stepped B s op event s' := by
  unfold CapabilityBroker.advanceAt at h
  cases hi : s.procs i with
  | none =>
      rw [hi] at h
      obtain ⟨rfl, rfl⟩ := Prod.mk.inj h
      exact .rest rfl rfl rfl
  | some p =>
      rw [hi] at h
      dsimp only at h
      cases hp : B.advance p i op with
      | none =>
          rw [hp] at h
          obtain ⟨rfl, rfl⟩ := Prod.mk.inj h
          exact .rest rfl rfl rfl
      | some next =>
          rw [hp] at h
          obtain ⟨rfl, rfl⟩ := Prod.mk.inj h
          exact .advanced hi hp rfl rfl

theorem persist_stepped {s s' : BrokerState β} {op : BrokerOp β} {i : Nat} {p : Process β}
    {sinks : List (Option PyException)} {event : BrokerEvent β} (hi : s.procs i = some p)
    (h : B.persist s i p sinks = (event, s')) : Stepped B s op event s' := by
  unfold CapabilityBroker.persist at h
  split at h
  · rename_i receipt owned after hphase
    split at h
    · obtain ⟨rfl, rfl⟩ := Prod.mk.inj h
      exact .stored hi hphase rfl rfl
    · obtain ⟨rfl, rfl⟩ := Prod.mk.inj h
      exact .interrupted hi hphase rfl rfl
  · obtain ⟨rfl, rfl⟩ := Prod.mk.inj h
    exact .rest rfl rfl rfl

theorem recover_stepped {s s' : BrokerState β} {op : BrokerOp β} {i : Nat} {p : Process β}
    {sinks : List (Option PyException)} {now : String} {event : BrokerEvent β}
    (hi : s.procs i = some p) (h : B.recover s i p sinks now = (event, s')) : Stepped B s op event s' := by
  unfold CapabilityBroker.recover at h
  split at h
  · rename_i owned e hphase
    split at h
    · split at h
      · obtain ⟨rfl, rfl⟩ := Prod.mk.inj h
        exact .recovered hi hphase rfl rfl
      · obtain ⟨rfl, rfl⟩ := Prod.mk.inj h
        exact .gaveUp hi hphase rfl rfl
    · obtain ⟨rfl, rfl⟩ := Prod.mk.inj h
      exact .gaveUp hi hphase rfl rfl
  · obtain ⟨rfl, rfl⟩ := Prod.mk.inj h
    exact .rest rfl rfl rfl

theorem openBatch_stepped {s s' : BrokerState β} {op : BrokerOp β} {b : Nat}
    {calls : List CapabilityCall} {context : InvocationContext} {maxConcurrency : Option Int}
    {u : BitVec 128} {event : BrokerEvent β}
    (h : B.openBatch s b calls context maxConcurrency u = (event, s')) : Stepped B s op event s' := by
  unfold CapabilityBroker.openBatch at h
  split at h
  · obtain ⟨rfl, rfl⟩ := Prod.mk.inj h
    exact .rest rfl rfl rfl
  · split at h
    · obtain ⟨rfl, rfl⟩ := Prod.mk.inj h
      exact .rest rfl rfl rfl
    · split at h
      · obtain ⟨rfl, rfl⟩ := Prod.mk.inj h
        exact .rest rfl rfl rfl
      · obtain ⟨rfl, rfl⟩ := Prod.mk.inj h
        exact .rest rfl rfl rfl

theorem batchInvoke_stepped {s s' : BrokerState β} {op : BrokerOp β} {b index i : Nat} {now : String}
    {u : BitVec 128} {event : BrokerEvent β}
    (h : B.batchInvoke s b index i now u = (event, s')) : Stepped B s op event s' := by
  unfold CapabilityBroker.batchInvoke at h
  split at h
  · split at h
    · obtain ⟨rfl, rfl⟩ := Prod.mk.inj h
      exact .rest rfl rfl rfl
    · split at h
      · dsimp only at h
        refine invoke_stepped ?_ ?_ h
        · rfl
        · rfl
      · obtain ⟨rfl, rfl⟩ := Prod.mk.inj h
        exact .rest rfl rfl rfl
  · obtain ⟨rfl, rfl⟩ := Prod.mk.inj h
    exact .rest rfl rfl rfl

/-- **What a step can do.** -/
theorem step_stepped {s s' : BrokerState β} {op : BrokerOp β} {event : BrokerEvent β}
    (h : B.step op s = (event, s')) : Stepped B s op event s' := by
  cases op with
  | invoke i ref args context now u => exact invoke_stepped rfl rfl h
  | persist i sinks =>
      cases hi : s.procs i with
      | none =>
          rw [CapabilityBroker.step, hi] at h
          obtain ⟨rfl, rfl⟩ := Prod.mk.inj h
          exact .rest rfl rfl rfl
      | some p =>
          rw [CapabilityBroker.step, hi] at h
          exact persist_stepped hi h
  | recover i sinks now =>
      cases hi : s.procs i with
      | none =>
          rw [CapabilityBroker.step, hi] at h
          obtain ⟨rfl, rfl⟩ := Prod.mk.inj h
          exact .rest rfl rfl rfl
      | some p =>
          rw [CapabilityBroker.step, hi] at h
          exact recover_stepped hi h
  | batch b calls context maxConcurrency u => exact openBatch_stepped h
  | batchInvoke b index i now u => exact batchInvoke_stepped h
  | prepare i probe now attempted => exact advanceAt_stepped h
  | enter i raised now => exact advanceAt_stepped h
  | start i => exact advanceAt_stepped h
  | finish i e => exact advanceAt_stepped h
  | poll i probe elapsedMs => exact advanceAt_stepped h
  | interrupt i e now => exact advanceAt_stepped h
  | collect i cancelling now => exact advanceAt_stepped h
  | settle i e now => exact advanceAt_stepped h

/-! ## 3.  The preparation -/

/-- An exception of the preparation ends in a receipt that is not `ok`, or interrupts it. -/
theorem failPrepared_cases (c : Invocation) (metadata : CapabilityMetadata) (owned : Ownership)
    (now : String) (e : PyException) {failure : String → Failure}
    (hfailure : ∀ text, (failure text).status ≠ .ok) :
    (∃ r : CapabilityReceipt β, c.failPrepared metadata owned now e failure = .finalize r owned ∧
        r.status ≠ .ok) ∨
      ∃ e', (c.failPrepared metadata owned now e failure : Prepared β) = .interrupted owned e' := by
  unfold Invocation.failPrepared
  split
  · exact .inl ⟨_, rfl, hfailure _⟩
  · exact .inr ⟨_, rfl⟩
  · exact .inr ⟨_, rfl⟩

/-- **How a preparation ends**: in a receipt that is not `ok`, in an interruption, or in the dispatch of
the capability with the metadata it has under the arguments of the call. -/
theorem prepare_cases (B : CapabilityBroker) (c : Invocation)
    (probe : Except PyException CancellationProbe) (now : String) :
    (∃ (r : CapabilityReceipt β) (owned : Ownership), B.prepare c probe now = .finalize r owned ∧
        r.status ≠ .ok) ∨
      (∃ owned e, (B.prepare c probe now : Prepared β) = .interrupted owned e) ∨
        ∃ m args tool m₀, (B.prepare c probe now : Prepared β) = .dispatch m args ∧
          B.resolve c.ref = .ok (tool, m₀) ∧ B.metadataForTool tool (some c.rawArgs) = .ok m := by
  unfold CapabilityBroker.prepare
  cases hresolve : B.resolve c.ref with
  | error e =>
      dsimp only
      have hfailure : ∀ text, (Failure.mk .error (if c.ref.schemaRevision = "unavailable" then
          "capability_unavailable" else "capability_resolution_error") text false false "").status ≠ .ok := by
        simp
      rcases failPrepared_cases (β := β) c c.ref.unknown ⟨none, none⟩ now e hfailure with
        ⟨r, hr, hok⟩ | ⟨e', he'⟩
      · exact .inl ⟨r, _, hr, hok⟩
      · exact .inr (.inl ⟨_, e', he'⟩)
  | ok resolved =>
      obtain ⟨tool, m₀⟩ := resolved
      dsimp only
      cases hm : B.metadataForTool tool (some c.rawArgs) with
      | error e => exact .inr (.inl ⟨_, e, rfl⟩)
      | ok m =>
          dsimp only [Invocation.checkCancelled]
          cases probe with
          | error e => exact .inr (.inl ⟨_, e, rfl⟩)
          | ok probe =>
              dsimp only
              split
              · exact .inl ⟨_, _, rfl, by simp [Invocation.cancelledBeforeStart, Invocation.errorReceipt]⟩
              · unfold Invocation.validate
                split
                · rename_i e _
                  have hfailure : ∀ text, (Failure.mk .error "invalid_arguments"
                      (if text = "" then "invalid capability arguments" else text) true false "").status ≠
                        .ok := by
                    simp
                  rcases failPrepared_cases (β := β) c m ⟨some m, none⟩ now e hfailure with
                    ⟨r, hr, hok⟩ | ⟨e', he'⟩
                  · exact .inl ⟨r, _, hr, hok⟩
                  · exact .inr (.inl ⟨_, e', he'⟩)
                · exact .inr (.inr ⟨m, _, tool, m₀, rfl, rfl, hm⟩)

/-! ## 4.  Honest receipts -/

/-- The metadata is the one of the capability under the arguments of the call. -/
def CapabilityBroker.Describes (B : CapabilityBroker) (c : Invocation) (m : CapabilityMetadata) : Prop :=
  ∃ tool m₀, B.resolve c.ref = .ok (tool, m₀) ∧ B.metadataForTool tool (some c.rawArgs) = .ok m

/-- The handler returned, and its result was projected. -/
def Process.Returned (p : Process β) : Prop := ∃ projection, p.ended = some (.returned (.ok projection))

/-- The dispatch ended with a `ToolError` whose code declares that nothing was applied. -/
def Process.Declared (p : Process β) : Prop :=
  ∃ e text, p.ended = some (.raised e) ∧ e.tool.isSome = true ∧ e.str = .ok text ∧
    harmlessCodes.contains (e.fault text).code = true

/-- **A receipt is honest** about the effect of its invocation. -/
structure Honest (B : CapabilityBroker) (p : Process β) (r : CapabilityReceipt β) : Prop where
  described : p.started = true → B.Describes p.call r.metadata
  attempted : p.started = true → r.effect.attemptedAt.isSome = true
  uncertain : p.started = true → r.metadata.effectful = true →
    r.status = .ok ∧ p.Returned ∨ r.mayHaveApplied = true ∧ r.retryable = false ∨ p.Declared
  retryable : r.retryable = true → p.started = false ∨ r.metadata.effectful = false
  ok : r.status = .ok → p.started = true ∧ p.Returned

/-- What an interruption would be recorded with. -/
def Process.Owns (B : CapabilityBroker) (p : Process β) (owned : Ownership) : Prop :=
  p.started = true → owned.attemptedAt.isSome = true ∧
    ∃ m, owned.metadata = some m ∧ B.Describes p.call m

/-- What an invocation keeps to itself, in each of its phases. -/
def Process.Sound (B : CapabilityBroker) (p : Process β) : Prop :=
  match p.phase with
  | .admitted => p.started = false
  | .waiting d => p.started = false ∧ B.Describes p.call d.metadata
  | .controlled d .created => p.started = false ∧ B.Describes p.call d.metadata
  | .controlled d _ => p.started = true ∧ B.Describes p.call d.metadata
  | .stopping d _ running => p.started = running ∧ B.Describes p.call d.metadata
  | .ending r owned _ => Honest B p r ∧ p.Owns B owned
  | .interrupted owned _ => p.Owns B owned
  | .done _ => True

/-- Storing a receipt keeps it honest: a failure of a required sink makes an effect uncertain. -/
theorem Honest.afterSinks {p : Process β} {r : CapabilityReceipt β} (h : Honest B p r)
    (failures : List String) : Honest B p (r.afterSinks failures) := by
  unfold CapabilityReceipt.afterSinks
  split
  · exact
      { described := h.described
        attempted := h.attempted
        uncertain := fun _ _ => .inr (.inl ⟨rfl, rfl⟩)
        retryable := fun hr => absurd (show false = true from hr) (by simp)
        ok := fun hr => absurd (show ReceiptStatus.needsReconciliation = .ok from hr) (by simp) }
  · exact h

/-- Where an invocation ended up does not matter to what its receipt says. -/
theorem Honest.phase {p : Process β} {r : CapabilityReceipt β} (h : Honest B p r) (phase : Phase β) :
    Honest B { p with phase := phase } r :=
  ⟨h.described, h.attempted, h.uncertain, h.retryable, h.ok⟩

/-- The receipt of an invocation whose handler was not started. -/
theorem honest_of_not_started {p : Process β} {r : CapabilityReceipt β} (h : p.started = false)
    (hstatus : r.status ≠ .ok) : Honest B p r where
  described hs := absurd (h.symm.trans hs) (by simp)
  attempted hs := absurd (h.symm.trans hs) (by simp)
  uncertain hs := absurd (h.symm.trans hs) (by simp)
  retryable _ := .inl h
  ok hr := absurd hr hstatus

/-- **The guard's receipt is honest.** -/
theorem honest_interrupted {p : Process β} {owned : Ownership} (h : p.Owns B owned) (now : String)
    (e : PyException) : Honest B p (p.call.interruptedReceipt owned now e) := by
  cases hs : p.started with
  | false =>
      refine honest_of_not_started hs ?_
      unfold Invocation.interruptedReceipt Invocation.errorReceipt
      dsimp only
      split <;> simp
  | true =>
      obtain ⟨hattempted, m, hm, hdescribes⟩ := h hs
      refine ⟨fun _ => ?_, fun _ => hattempted, fun _ heffect => .inr (.inl ⟨?_, rfl⟩),
        fun hr => absurd (show false = true from hr) (by simp), fun hok => ?_⟩
      · show B.Describes p.call (owned.metadata.getD p.call.ref.unknown)
        rw [hm]
        exact hdescribes
      · show (owned.attemptedAt.isSome && (owned.metadata.getD p.call.ref.unknown).effectful) = true
        rw [hattempted]
        exact heffect
      · unfold Invocation.interruptedReceipt Invocation.errorReceipt at hok
        dsimp only at hok
        split at hok <;> exact absurd hok (by simp)

/-- A receipt of a dispatch that did not return. -/
theorem honest_afterDispatch {p : Process β} {d : Dispatched} (hd : B.Describes p.call d.metadata)
    (now : String) {f : Failure} (hstatus : f.status ≠ .ok)
    (huncertain : d.metadata.effectful = true →
      f.mayHaveApplied = true ∧ f.retryable = false ∨ p.Declared)
    (hretryable : f.retryable = true → d.metadata.effectful = false) :
    Honest B p (p.call.afterDispatch d now f) where
  described _ := hd
  attempted _ := rfl
  uncertain _ heffect := .inr (huncertain heffect)
  retryable hr := .inr (hretryable hr)
  ok hr := absurd hr hstatus

theorem honest_stopped {p : Process β} {d : Dispatched} (hd : B.Describes p.call d.metadata)
    (now : String) {status : ReceiptStatus} (hstatus : status ≠ .ok) (code message cause : String) :
    Honest B p (p.call.afterDispatch d now (d.stopped status code message cause)) := by
  refine honest_afterDispatch hd now ?_ (fun heffect => .inl ⟨heffect, ?_⟩) fun hr => ?_
  · show (if d.metadata.effectful then ReceiptStatus.needsReconciliation else status) ≠ .ok
    split
    · simp
    · exact hstatus
  · show (!d.metadata.effectful) = false
    rw [heffect]
    rfl
  · exact Bool.not_eq_true' _ |>.mp hr

/-- The codes of a `ToolError` are the only ones that declare something. -/
theorem tool_of_harmless {e : PyException} {text : String}
    (h : harmlessCodes.contains (e.fault text).code = true) : e.tool.isSome = true := by
  cases ht : e.tool with
  | some _ => rfl
  | none =>
      have hcode : (e.fault text).code = "capability_handler_error" := by
        unfold PyException.fault
        rw [ht]
      rw [hcode] at h
      exact absurd h (by decide)

theorem honest_failed {p : Process β} {d : Dispatched} (hd : B.Describes p.call d.metadata)
    (now : String) {e : PyException} {text : String} (hended : p.ended = some (.raised e))
    (htext : e.str = .ok text) : Honest B p (p.call.afterDispatch d now (d.failed e text)) := by
  refine honest_afterDispatch hd now (by simp [Dispatched.failed]) (fun heffect => ?_) fun hr => ?_
  · cases hcode : harmlessCodes.contains (e.fault text).code with
    | true => exact .inr ⟨e, text, hended, tool_of_harmless hcode, htext, hcode⟩
    | false =>
        refine .inl ⟨?_, ?_⟩
        · show (d.metadata.effectful && !harmlessCodes.contains (e.fault text).code) = true
          rw [heffect, hcode]
          rfl
        · show (!d.metadata.effectful) = false
          rw [heffect]
          rfl
  · exact Bool.not_eq_true' _ |>.mp hr

theorem honest_ok {p : Process β} {d : Dispatched} (hd : B.Describes p.call d.metadata) (now : String)
    {projection : Projection β} (hstarted : p.started = true)
    (hended : p.ended = some (.returned (.ok projection))) :
    Honest B p (p.call.okReceipt d now projection) where
  described _ := hd
  attempted _ := rfl
  uncertain _ _ := .inl ⟨rfl, projection, hended⟩
  retryable hr := absurd (show false = true from hr) (by simp)
  ok _ := ⟨hstarted, projection, hended⟩

/-- A dispatch that ended with a result. -/
def DispatchEnd.isReturned : DispatchEnd β → Bool
  | .returned _ => true
  | .authorityFailed _ | .cancelled _ | .timedOut | .raised _ => false

/-- **The receipt of a dispatch is honest.** -/
theorem honest_outcome {p : Process β} {d : Dispatched} (hd : B.Describes p.call d.metadata)
    {now : String} {e : DispatchEnd β} (hended : p.ended = some e)
    (hstarted : e.isReturned = true → p.started = true) {r : CapabilityReceipt β}
    {after : Option PyException} (h : p.call.outcome d now e = .ok (r, after)) : Honest B p r := by
  cases e with
  | authorityFailed error =>
      obtain ⟨rfl, -⟩ := Prod.mk.inj (Except.ok.inj h)
      exact honest_stopped hd now (by simp) _ _ _
  | cancelled message =>
      obtain ⟨rfl, -⟩ := Prod.mk.inj (Except.ok.inj h)
      exact honest_stopped hd now (by simp) _ _ _
  | timedOut =>
      obtain ⟨rfl, -⟩ := Prod.mk.inj (Except.ok.inj h)
      exact honest_stopped hd now (by simp) _ _ _
  | raised e =>
      unfold Invocation.outcome Invocation.raisedOutcome at h
      dsimp only at h
      split at h
      · exact absurd h (by simp)
      · obtain ⟨rfl, -⟩ := Prod.mk.inj (Except.ok.inj h)
        exact honest_stopped hd now (by simp) _ _ _
      · cases htext : e.str with
        | error e' =>
            rw [htext] at h
            exact absurd h (by simp [Except.map])
        | ok text =>
            rw [htext] at h
            obtain ⟨rfl, -⟩ := Prod.mk.inj (Except.ok.inj h)
            exact honest_failed hd now hended htext
  | returned projection =>
      unfold Invocation.outcome Invocation.returnedOutcome at h
      dsimp only at h
      split at h
      · obtain ⟨rfl, -⟩ := Prod.mk.inj (Except.ok.inj h)
        exact honest_ok hd now (hstarted rfl) hended
      · rename_i e
        split at h
        · cases htext : e.str with
          | error e' =>
              rw [htext] at h
              exact absurd h (by simp [Except.map])
          | ok text =>
              rw [htext] at h
              obtain ⟨rfl, -⟩ := Prod.mk.inj (Except.ok.inj h)
              exact honest_stopped hd now (by simp) _ _ _
        · exact absurd h (by simp)

/-! ## 5.  Steps of one invocation -/

theorem Process.Owns.of_not_started {p : Process β} (h : p.started = false) (owned : Ownership) :
    p.Owns B owned := fun hs => absurd (h.symm.trans hs) (by simp)

theorem active_of_phase {p : Process β} {phase : Phase β} (h : p.phase = phase)
    (hne : ∀ reply, phase ≠ .done reply) : p.active = true := by
  unfold Process.active
  split
  · rename_i reply hdone
    exact absurd (h.symm.trans hdone) (hne reply)
  · rfl

/-- The end of a dispatch keeps an invocation sound. -/
theorem sound_conclude {p : Process β} {d : Dispatched} (hd : B.Describes p.call d.metadata)
    (now : String) {e : DispatchEnd β} (hstarted : e.isReturned = true → p.started = true) :
    (p.conclude d now e).Sound B := by
  have howns : ∀ phase, Process.Owns B { p with ended := some e, phase := phase } d.owned :=
    fun _ _ => ⟨rfl, d.metadata, rfl, hd⟩
  cases hout : p.call.outcome d now e with
  | error e' =>
      have hconclude : p.conclude d now e =
          { p with ended := some e, phase := .interrupted d.owned e' } := by
        unfold Process.conclude
        rw [hout]
      rw [hconclude]
      exact howns _
  | ok ra =>
      obtain ⟨r, after⟩ := ra
      have hconclude : p.conclude d now e =
          { p with ended := some e, phase := .ending r d.owned after } := by
        unfold Process.conclude
        rw [hout]
      rw [hconclude]
      exact ⟨honest_outcome (p := { p with ended := some e, phase := .ending r d.owned after }) hd rfl
        hstarted hout, howns _⟩

theorem conclude_active (p : Process β) (d : Dispatched) (now : String) (e : DispatchEnd β) :
    (p.conclude d now e).active = true := by
  unfold Process.conclude
  cases p.call.outcome d now e with
  | error _ => rfl
  | ok _ => rfl

/-- The preparation keeps an invocation sound and on its way. -/
theorem sound_prepared {p : Process β} (h : p.started = false)
    (probe : Except PyException CancellationProbe) (now attempted : String) :
    Process.Sound B { p with phase := B.prepared p.call attempted (B.prepare p.call probe now) } ∧
      Process.active { p with phase := B.prepared p.call attempted (B.prepare p.call probe now) } = true := by
  rcases prepare_cases B p.call probe now with
    ⟨r, owned, hr, hok⟩ | ⟨owned, e, he⟩ | ⟨m, args, tool, m₀, hm, hres, hmeta⟩
  · rw [hr]
    exact ⟨⟨honest_of_not_started h hok, .of_not_started h owned⟩, rfl⟩
  · rw [he]
    exact ⟨.of_not_started h owned, rfl⟩
  · rw [hm]
    dsimp only [CapabilityBroker.prepared]
    split
    · exact ⟨⟨h, tool, m₀, hres, hmeta⟩, rfl⟩
    · exact ⟨⟨h, tool, m₀, hres, hmeta⟩, rfl⟩

/-- A reason is no result. -/
theorem not_returned_of_reason (reason : StopReason) :
    (reason.raised : DispatchEnd β).isReturned = false := by
  cases reason <;> rfl

theorem not_returned_of_settled (reason : StopReason) (e : HandlerEnd β) :
    (reason.settled e).isReturned = false := by
  cases e with
  | returned projection => exact not_returned_of_reason reason
  | cancelled => exact not_returned_of_reason reason
  | raised e =>
      unfold StopReason.settled
      dsimp only
      split
      · exact not_returned_of_reason reason
      · rfl

/-- What a step of an invocation does to it: it starts the handler, or it does not and tells nothing. -/
structure Advanced (B : CapabilityBroker) (p : Process β) (i : Nat) (event : BrokerEvent β)
    (p' : Process β) : Prop where
  sound : p'.Sound B
  call : p'.call = p.call
  active : p.active = true
  active' : p'.active = true
  event : event = .quiet ∧ p'.started = p.started ∨
    event = .started i p.call.key ∧ p.started = false ∧ p'.started = true

/-- A step that starts no handler. -/
theorem Advanced.quiet {p p' : Process β} (i : Nat) (hsound : p'.Sound B) (hcall : p'.call = p.call)
    (hactive : p.active = true) (hactive' : p'.active = true) (hstarted : p'.started = p.started) :
    Advanced B p i .quiet p' :=
  ⟨hsound, hcall, hactive, hactive', .inl ⟨rfl, hstarted⟩⟩

/-- A task that is not finished is cancelled, for a reason or not. -/
theorem advanced_stop {p : Process β} {d : Dispatched} {task : TaskState β} (i : Nat)
    (hphase : p.phase = .controlled d task) (hsound : p.Sound B) (htask : p.started = task.isRunning)
    (hd : B.Describes p.call d.metadata) (reason : Option StopReason) :
    Advanced B p i .quiet ((reason.map (p.stop d task)).getD p) := by
  have hactive : p.active = true := by
    unfold Process.active
    rw [hphase]
  cases reason with
  | none => exact .quiet i hsound rfl hactive hactive rfl
  | some reason => exact .quiet i ⟨htask, hd⟩ rfl hactive rfl rfl

/-- The dispatch of an invocation ends. -/
theorem advanced_conclude {p : Process β} {d : Dispatched} (i : Nat) (hactive : p.active = true)
    (hd : B.Describes p.call d.metadata) (now : String) {e : DispatchEnd β}
    (hstarted : e.isReturned = true → p.started = true) :
    Advanced B p i .quiet (p.conclude d now e) :=
  .quiet i (sound_conclude hd now hstarted) rfl hactive (conclude_active p d now e) rfl

/-- A task that is not finished is one the invocation's record agrees with. -/
theorem sound_task {p : Process β} {d : Dispatched} {task : TaskState β} (hsound : p.Sound B)
    (hphase : p.phase = .controlled d task) (htask : ∀ e, task ≠ .finished e) :
    p.started = task.isRunning ∧ B.Describes p.call d.metadata := by
  unfold Process.Sound at hsound
  rw [hphase] at hsound
  cases task with
  | created => exact hsound
  | running => exact hsound
  | finished e => exact absurd rfl (htask e)

/-- A task that is finished was started. -/
theorem sound_finished {p : Process β} {d : Dispatched} {e : HandlerEnd β} (hsound : p.Sound B)
    (hphase : p.phase = .controlled d (.finished e)) :
    p.started = true ∧ B.Describes p.call d.metadata := by
  unfold Process.Sound at hsound
  rw [hphase] at hsound
  exact hsound

/-- **A step of an invocation** keeps it sound and on its way. -/
theorem advance_spec {p p' : Process β} {i : Nat} {op : BrokerOp β} {event : BrokerEvent β}
    (hsound : p.Sound B) (h : B.advance p i op = some (event, p')) : Advanced B p i event p' := by
  cases op with
  | prepare _ probe now attempted =>
      dsimp only [CapabilityBroker.advance] at h
      split at h
      · rename_i hphase
        obtain ⟨rfl, rfl⟩ := Prod.mk.inj (Option.some.inj h)
        have hs : p.started = false := by
          unfold Process.Sound at hsound
          rw [hphase] at hsound
          exact hsound
        obtain ⟨hsound', hactive'⟩ := sound_prepared (B := B) hs probe now attempted
        exact .quiet i hsound' rfl (active_of_phase hphase (by simp)) hactive' rfl
      · exact absurd h (by simp)
  | enter _ raised now =>
      dsimp only [CapabilityBroker.advance] at h
      split at h
      · rename_i d hphase
        obtain ⟨rfl, rfl⟩ := Prod.mk.inj (Option.some.inj h)
        unfold Process.Sound at hsound
        rw [hphase] at hsound
        exact .quiet i hsound rfl (active_of_phase hphase (by simp)) rfl rfl
      · rename_i d e hphase
        obtain ⟨rfl, rfl⟩ := Prod.mk.inj (Option.some.inj h)
        unfold Process.Sound at hsound
        rw [hphase] at hsound
        exact advanced_conclude i (active_of_phase hphase (by simp)) hsound.2 now
          fun hr => absurd hr (by simp [DispatchEnd.isReturned])
      · exact absurd h (by simp)
  | start _ =>
      dsimp only [CapabilityBroker.advance] at h
      split at h
      · rename_i d hphase
        obtain ⟨rfl, rfl⟩ := Prod.mk.inj (Option.some.inj h)
        obtain ⟨hs, hd⟩ := sound_task hsound hphase (by simp)
        exact ⟨⟨rfl, hd⟩, rfl, active_of_phase hphase (by simp), rfl, .inr ⟨rfl, hs, rfl⟩⟩
      · exact absurd h (by simp)
  | finish _ e =>
      dsimp only [CapabilityBroker.advance] at h
      split at h
      · rename_i d hphase
        obtain ⟨rfl, rfl⟩ := Prod.mk.inj (Option.some.inj h)
        obtain ⟨hs, hd⟩ := sound_task hsound hphase (by simp)
        exact .quiet i ⟨hs, hd⟩ rfl (active_of_phase hphase (by simp)) rfl rfl
      · exact absurd h (by simp)
  | poll _ probe elapsedMs =>
      dsimp only [CapabilityBroker.advance] at h
      split at h
      · exact absurd h (by simp)
      · rename_i d task hfinished hphase
        obtain ⟨rfl, rfl⟩ := Prod.mk.inj (Option.some.inj h)
        obtain ⟨hs, hd⟩ := sound_task hsound hphase (by rintro e rfl; exact hfinished e rfl)
        exact advanced_stop i hphase hsound hs hd _
      · exact absurd h (by simp)
  | interrupt _ e now =>
      dsimp only [CapabilityBroker.advance] at h
      split at h
      · rename_i d e' hphase
        obtain ⟨rfl, rfl⟩ := Prod.mk.inj (Option.some.inj h)
        exact advanced_conclude i (active_of_phase hphase (by simp)) (sound_finished hsound hphase).2 now
          fun hr => absurd hr (by simp [DispatchEnd.isReturned])
      · rename_i d task hfinished hphase
        obtain ⟨rfl, rfl⟩ := Prod.mk.inj (Option.some.inj h)
        obtain ⟨hs, hd⟩ := sound_task hsound hphase (by rintro e rfl; exact hfinished e rfl)
        exact advanced_stop i hphase hsound hs hd (some (.interrupted e))
      · exact absurd h (by simp)
  | collect _ cancelling now =>
      dsimp only [CapabilityBroker.advance] at h
      split at h
      · rename_i d e hphase
        obtain ⟨rfl, rfl⟩ := Prod.mk.inj (Option.some.inj h)
        obtain ⟨hs, hd⟩ := sound_finished hsound hphase
        exact advanced_conclude i (active_of_phase hphase (by simp)) hd now fun _ => hs
      · exact absurd h (by simp)
  | settle _ e now =>
      dsimp only [CapabilityBroker.advance] at h
      split at h
      · rename_i d reason running hphase
        obtain ⟨rfl, rfl⟩ := Prod.mk.inj (Option.some.inj h)
        unfold Process.Sound at hsound
        rw [hphase] at hsound
        refine advanced_conclude i (active_of_phase hphase (by simp)) hsound.2 now fun hr => ?_
        split at hr
        · exact absurd ((not_returned_of_settled reason e).symm.trans hr) (by simp)
        · exact absurd ((not_returned_of_reason reason).symm.trans hr) (by simp)
      · exact absurd h (by simp)
  | invoke | persist | recover | batch | batchInvoke => exact absurd h (by simp [CapabilityBroker.advance])

end Capability
end VariantOne
