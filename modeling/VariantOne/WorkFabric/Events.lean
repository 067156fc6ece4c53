import VariantOne.WorkFabric.Tables

/-!
# The event log

`insertEvent` is the one place where the log grows.  It cleans its arguments,
answers a repeated idempotency key from the log, insists that the aggregate's
version advances by exactly one, and writes the event together with one pending
outbox row.  `append_event` is that body in a transaction of its own.

`insertEvent_ok` says everything it can do: return an earlier event and change
nothing, or append (`Appended`).

An event that is answered from the log is the one stored under the idempotency key, whatever the new
arguments are; a version that does not follow the last one of its aggregate is a conflict.  Both leave the
tables as they were, so a caller may repeat a call whose answer it has lost.
-/

namespace VariantOne
namespace WorkFabric

/-- The keyword arguments of `append_event`. -/
structure EventArgs where
  eventType : String
  aggregateKind : String
  aggregateId : String
  aggregateVersion : Option Int := none
  expectedAggregateVersion : Option Int := none
  scope : WorkScope := .empty
  actor : Option WorkActor := none
  correlationId : String := ""
  causationId : String := ""
  idempotencyKey : String := ""
  payloadRef : String := ""
  payload : PyDict := []
  createdAt : Option ℚ := none

/-- The arguments after cleaning. -/
structure CleanEvent where
  kind : Text true 100
  aggregate : Text true 512
  eventName : Text true 240
  idem : Text false 512
  scope : WorkScope
  actor : WorkActor
  correlation : Text false 512
  causation : Text false 512
  payloadRef : Text false 2000
  payload : PyDict

/-- `actor or WorkActor()`, cleaned. -/
def cleanActor (actor : Option WorkActor) : Except Raised WorkActor := do
  let raw := actor.getD .system
  let kind ← text raw.kind "actor.kind" true 100
  let actorId ← text raw.actorId "actor.id" true 512
  pure ⟨kind.val, actorId.val⟩

/-- The cleaning at the head of `_insert_event_tx`. -/
def cleanEvent (a : EventArgs) : Except Raised CleanEvent := do
  let kind ← text a.aggregateKind "aggregate_kind" true 100
  let aggregate ← text a.aggregateId "aggregate_id" true 512
  let eventName ← text a.eventType "event_type" true 240
  let idem ← text a.idempotencyKey "idempotency_key" false 512
  let actor ← cleanActor a.actor
  let correlation ← text a.correlationId "correlation_id" false 512
  let causation ← text a.causationId "causation_id" false 512
  let payloadRef ← text a.payloadRef "payload_ref" false 2000
  pure ⟨kind, aggregate, eventName, idem, a.scope, actor, correlation, causation, payloadRef,
    a.payload⟩

/-- `fingerprint_for(version)` -/
def eventFingerprint (H : Host) (c : CleanEvent) (version : Nat) : Except Raised String :=
  requestFingerprint H "work.event.append" (.dict
    [("aggregate", .dict [("kind", .str c.kind.val), ("id", .str c.aggregate.val),
        ("version", .int version)]),
      ("event_type", .str c.eventName.val), ("scope", .dict c.scope.toDict),
      ("actor", .dict c.actor.toDict), ("correlation_id", .str c.correlation.val),
      ("causation_id", .str c.causation.val), ("payload_ref", .str c.payloadRef.val),
      ("payload", .dict c.payload)])

/-- The event an idempotency key already names. -/
def priorEvent (t : Tables) (c : CleanEvent) : Option WorkEvent :=
  if c.idem.val = "" then none
  else t.events.rows.find? fun e =>
    e.aggregateKind.val == c.kind.val && e.aggregateId.val == c.aggregate.val &&
      e.idempotencyKey.val == c.idem.val

/-- The command agrees with the event its key named: none of the comparisons of
the replay check fails. -/
def sameCommand (prior : WorkEvent) (c : CleanEvent) (a : EventArgs) (candidate : String) : Prop :=
  (prior.requestFingerprint = "" ∨ prior.requestFingerprint = candidate) ∧
  prior.eventType = c.eventName ∧
  (∀ v ∈ a.aggregateVersion, (prior.aggregateVersion : Int) = v) ∧
  (∀ v ∈ a.expectedAggregateVersion, (prior.aggregateVersion : Int) - 1 = v) ∧
  prior.scope = c.scope ∧ prior.actor = c.actor ∧ prior.correlationId = c.correlation ∧
  prior.causationId = c.causation ∧ prior.payloadRef = c.payloadRef ∧
  eqDict c.payload prior.payload = true

instance (prior : WorkEvent) (c : CleanEvent) (a : EventArgs) (candidate : String) :
    Decidable (sameCommand prior c a candidate) := by
  unfold sameCommand
  infer_instance

/-- The replay check's refusal. -/
def eventKeyReused : Raised :=
  ⟨.workConflict, "event idempotency key was reused for another command"⟩

/-- The event a command appends. -/
def newEvent (c : CleanEvent) (version : Nat) (fingerprint : String)
    (payload : List (String × Json)) (eventId : String) (sequence : Nat) (now : ℚ) : WorkEvent where
  eventId := eventId
  sequence := sequence
  aggregateKind := c.kind
  aggregateId := c.aggregate
  aggregateVersion := version
  eventType := c.eventName
  scope := c.scope
  actor := c.actor
  correlationId := c.correlation
  causationId := c.causation
  idempotencyKey := c.idem
  requestFingerprint := fingerprint
  payloadRef := c.payloadRef
  payload := payload
  createdAt := now

/-- The outbox row of a new event. -/
def newOutboxRow (outboxId : String) (event : WorkEvent) (now : ℚ) : OutboxRow where
  outboxId := outboxId
  eventId := event.eventId
  eventSequence := event.sequence
  status := .pending
  attempts := 0
  availableAt := now
  leaseOwner := ""
  leaseEpoch := 0
  leaseExpiresAt := none
  lastError := ""
  createdAt := now
  deliveredAt := none

/-- The version check failed before anything was written. -/
def versionChanged (c : CleanEvent) (current : Nat) (expected : Int) : Raised :=
  ⟨.workConflict, s!"aggregate version changed for {c.kind.val}:{c.aggregate.val} " ++
    s!"({current} != {expected})"⟩

/-- The version would not advance by one. -/
def versionSkipped (c : CleanEvent) (current : Nat) (version : Int) : Raised :=
  ⟨.workConflict, s!"event version must advance exactly once for {c.kind.val}:" ++
    s!"{c.aggregate.val} ({version} != {current + 1})"⟩

/-- `_insert_event_tx` -/
def insertEvent (H : Host) (env : Env) (a : EventArgs) : Work WorkEvent := do
  let c ← Txn.lift (cleanEvent a)
  let t ← Txn.read
  match priorEvent t c with
  | some prior =>
      let candidate ← Txn.lift (eventFingerprint H c prior.aggregateVersion)
      Txn.ensure (sameCommand prior c a candidate) eventKeyReused
      pure prior
  | none =>
      let current := t.currentVersion c.kind.val c.aggregate.val
      Txn.ensure (∀ v ∈ a.expectedAggregateVersion, (current : Int) = v)
        (versionChanged c current (a.expectedAggregateVersion.getD 0))
      Txn.ensure (∀ v ∈ a.aggregateVersion, v = (current : Int) + 1)
        (versionSkipped c current (a.aggregateVersion.getD 0))
      let fingerprint ← Txn.lift (eventFingerprint H c (current + 1))
      let sequence := t.eventSequence + 1
      let now := a.createdAt.getD (env.eventTime sequence)
      let _ ← Txn.lift (inlineJson H c.scope.toDict)
      let payload ← Txn.lift (inlineJson H c.payload)
      let event := newEvent c (current + 1) fingerprint payload
        (newId "evt" (env.uuid "evt" sequence)) sequence now
      insertEventRow event
      insertOutboxRow (newOutboxRow (newId "out" (env.uuid "out" sequence)) event now)
      pure event

/-- One event and its outbox row were added to the log. -/
structure Logged (t t' : Tables) (event : WorkEvent) : Prop where
  newId : t.events.find? event.eventId = none
  events : t'.events.rows = t.events.rows ++ [event]
  sequence : event.sequence = t.eventSequence + 1
  counter : t'.eventSequence = t.eventSequence + 1
  outbox : ∃ outboxId now, t.outbox.find? outboxId = none ∧
    t'.outbox.rows = t.outbox.rows ++ [newOutboxRow outboxId event now]
  projections : t'.projections = t.projections

/-- One event was appended, and no job changed. -/
structure Appended (t t' : Tables) (event : WorkEvent) : Prop extends Logged t t' event where
  jobs : t'.jobs = t.jobs

/-- The event of a command, as far as the command determines it. -/
structure EventOf (H : Host) (t : Tables) (c : CleanEvent) (a : EventArgs) (event : WorkEvent) :
    Prop where
  kind : event.aggregateKind = c.kind
  aggregate : event.aggregateId = c.aggregate
  version : event.aggregateVersion = t.currentVersion c.kind.val c.aggregate.val + 1
  expected : ∀ v ∈ a.expectedAggregateVersion,
    (t.currentVersion c.kind.val c.aggregate.val : Int) = v
  eventType : event.eventType = c.eventName
  scope : event.scope = c.scope
  actor : event.actor = c.actor
  correlation : event.correlationId = c.correlation
  causation : event.causationId = c.causation
  idem : event.idempotencyKey = c.idem
  payloadRef : event.payloadRef = c.payloadRef
  fingerprint : eventFingerprint H c event.aggregateVersion = .ok event.requestFingerprint
  payload : inlineJson H c.payload = .ok event.payload
  requested : ∀ v ∈ a.aggregateVersion, v = (event.aggregateVersion : Int)

/-- **What inserting an event can do.**  It answers from the log and changes
nothing, or it appends. -/
theorem insertEvent_ok {H : Host} {env : Env} {a : EventArgs} {t t' : Tables} {event : WorkEvent}
    (h : (insertEvent H env a).run t = .ok (event, t')) :
    ∃ c, cleanEvent a = .ok c ∧
      ((priorEvent t c = some event ∧ t' = t ∧
          ∃ candidate, eventFingerprint H c event.aggregateVersion = .ok candidate ∧
            sameCommand event c a candidate) ∨
        (priorEvent t c = none ∧ Appended t t' event ∧ EventOf H t c a event)) := by
  unfold insertEvent at h
  obtain ⟨c, hc, h⟩ := Txn.run_lift_bind_eq_ok.mp h
  rw [Txn.run_read_bind] at h
  refine ⟨c, hc, ?_⟩
  cases hp : priorEvent t c with
  | some prior =>
      rw [hp] at h
      obtain ⟨candidate, hf, h⟩ := Txn.run_lift_bind_eq_ok.mp h
      obtain ⟨hs, h⟩ := Txn.run_ensure_bind_eq_ok.mp h
      obtain ⟨rfl, rfl⟩ := Txn.run_pure_eq_ok.mp h
      exact Or.inl ⟨rfl, rfl, candidate, hf, hs⟩
  | none =>
      rw [hp] at h
      obtain ⟨hexp, h⟩ := Txn.run_ensure_bind_eq_ok.mp h
      obtain ⟨hreq, h⟩ := Txn.run_ensure_bind_eq_ok.mp h
      obtain ⟨fingerprint, hf, h⟩ := Txn.run_lift_bind_eq_ok.mp h
      obtain ⟨scopeDoc, -, h⟩ := Txn.run_lift_bind_eq_ok.mp h
      obtain ⟨payload, hpay, h⟩ := Txn.run_lift_bind_eq_ok.mp h
      obtain ⟨_, t₁, hev, h⟩ := Txn.run_bind_eq_ok.mp h
      obtain ⟨hnew, hevents, hcounter, hout₁, hjobs₁, hproj₁⟩ := insertEventRow_eq_ok hev
      obtain ⟨_, t₂, hout, h⟩ := Txn.run_bind_eq_ok.mp h
      obtain ⟨hfresh, houtbox, hev₂, hcount₂, hjobs₂, hproj₂⟩ := insertOutboxRow_eq_ok hout
      obtain ⟨rfl, rfl⟩ := Txn.run_pure_eq_ok.mp h
      rw [hout₁] at hfresh houtbox
      refine Or.inr ⟨rfl, ?_, ?_⟩
      · exact
          { newId := hnew
            events := by rw [hev₂, hevents]
            sequence := rfl
            counter := by rw [hcount₂, hcounter]; rfl
            outbox := ⟨_, _, hfresh, houtbox⟩
            jobs := by rw [hjobs₂, hjobs₁]
            projections := by rw [hproj₂, hproj₁] }
      · exact ⟨rfl, rfl, rfl, hexp, rfl, rfl, rfl, rfl, rfl, rfl, rfl, hf, hpay,
          fun v hv => by rw [hreq v hv]; rfl⟩

/-- `append_event` -/
def appendEvent (H : Host) (env : Env) (a : EventArgs) : Work WorkEvent := insertEvent H env a

/-- What the arguments were cleaned to. -/
theorem cleanEvent_eq_ok {a : EventArgs} {c : CleanEvent} (h : cleanEvent a = .ok c) :
    text a.aggregateKind "aggregate_kind" true 100 = .ok c.kind ∧
    text a.aggregateId "aggregate_id" true 512 = .ok c.aggregate ∧
    text a.eventType "event_type" true 240 = .ok c.eventName ∧
    text a.idempotencyKey "idempotency_key" false 512 = .ok c.idem ∧
    c.scope = a.scope ∧ cleanActor a.actor = .ok c.actor ∧ c.payload = a.payload := by
  obtain ⟨kind, hkind, h⟩ := except_bind_eq_ok.mp h
  obtain ⟨aggregate, hagg, h⟩ := except_bind_eq_ok.mp h
  obtain ⟨eventName, hname, h⟩ := except_bind_eq_ok.mp h
  obtain ⟨idem, hidem, h⟩ := except_bind_eq_ok.mp h
  obtain ⟨actor, hactor, h⟩ := except_bind_eq_ok.mp h
  obtain ⟨correlation, -, h⟩ := except_bind_eq_ok.mp h
  obtain ⟨causation, -, h⟩ := except_bind_eq_ok.mp h
  obtain ⟨payloadRef, -, h⟩ := except_bind_eq_ok.mp h
  obtain rfl := Except.ok.inj h
  exact ⟨hkind, hagg, hname, hidem, rfl, hactor, rfl⟩

end WorkFabric
end VariantOne
