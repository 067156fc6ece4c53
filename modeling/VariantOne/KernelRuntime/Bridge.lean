import VariantOne.Core.Value
import VariantOne.Lib.Machine

/-!
# The kernel bridge

`KernelBridgeServer` answers the requests of one kernel generation.  A request
and the request that cancels it travel on separate connections, so they may
arrive in either order: a cancellation that arrives first leaves a *tombstone*,
which the invocation takes with it when it is admitted.

Every section that holds `_active_lock` runs to its end without waiting, and so
do the pieces of a dispatch between two awaits.  These pieces are the steps of
the machine below: the admission of a request, the moment its handler starts, the
moment its dispatch ends, and whatever else reads or writes the two tables.  Any
interleaving of connections is a run.

A dispatch that was admitted is an `Invocation`, known by its number; it stands
for the coroutine and for the `_ActiveRequest` it registered.
-/

namespace VariantOne
namespace KernelRuntime

/-! ## Requests and answers -/

/-- A verified request as `_dispatch` reads it.  A text field holds what
`str(request.get(name) or "")` gives. -/
structure BridgeRequest where
  requestId : String
  generation : Int
  op : String
  handshake : String
  executionId : String
  outerToolCallId : String
  targetRequestId : String
  /-- Every field but `mac`, `request_id` and `op`. -/
  payload : List (String × Json)

/-- Who sent a request: the execution and the tool call it belongs to. -/
def BridgeRequest.origin (request : BridgeRequest) : String × String :=
  (request.executionId, request.outerToolCallId)

/-- `int(request.get("generation") or -1)` -/
def BridgeRequest.readGeneration (request : BridgeRequest) : Int :=
  if request.generation = 0 then -1 else request.generation

/-- What becomes of a step: the response of a dispatch, the exception it raises,
or, for an invocation, the number it is admitted under. -/
inductive Answer
  | protocolError (message : String)
  | hostError (message : String)
  | refused (requestId code message : String)
  | handshaken (requestId : String)
  | cancelled (requestId targetRequestId : String) (active : Bool)
  | admitted (invocation : Nat)
  | done
  deriving DecidableEq, Repr

/-- `BRIDGE_HANDSHAKE` -/
def bridgeHandshake : String := "variant1.kernel-handshake.v3"

/-! ## The server -/

/-- The arguments of the constructor that the tables depend on. -/
structure BridgeConfig where
  generation : Int
  cancellationCapacityArgument : Int
  maxInFlightArgument : Int
  invokeHandlerLimitsConcurrency : Bool

/-- `cancellation_capacity` -/
def BridgeConfig.cancellationCapacity (c : BridgeConfig) : Nat :=
  (max 64 c.cancellationCapacityArgument).toNat

/-- `max_in_flight` -/
def BridgeConfig.maxInFlight (c : BridgeConfig) : Nat :=
  (max 1 (min c.maxInFlightArgument 64)).toNat

/-- An admitted dispatch. -/
structure Invocation where
  requestId : String
  executionId : String
  outerToolCallId : String
  fingerprint : String
  /-- `cancellation.is_set()` -/
  cancellation : Bool
  /-- The handler is running. -/
  handling : Bool
  /-- `settled.is_set()`: the dispatch has ended. -/
  settled : Bool
  deriving DecidableEq, Repr

def Invocation.origin (i : Invocation) : String × String := (i.executionId, i.outerToolCallId)

/-- The server's state: its invocations in order of admission, `_active` as a map
to their numbers, and `_pending_cancellations`. -/
structure KernelBridgeServer where
  handshaken : Bool
  closing : Bool
  invocations : List Invocation
  active : List (String × Nat)
  pendingCancellations : List (String × (String × String))
  deriving DecidableEq, Repr

namespace KernelBridgeServer

def init : KernelBridgeServer := ⟨false, false, [], [], []⟩

/-- Set the cancellation events of the invocations in `p`. -/
def signal (s : KernelBridgeServer) (p : Nat → Bool) : KernelBridgeServer :=
  { s with invocations := s.invocations.mapIdx fun n i =>
      (if p n then { i with cancellation := true } else i) }

/-- The number `_active` holds for a request id. -/
def isActive (s : KernelBridgeServer) (n : Nat) : Bool := s.active.any fun e => e.2 == n

/-- `_cancel_request` -/
def cancelRequest (c : BridgeConfig) (s : KernelBridgeServer) (request : BridgeRequest) :
    Answer × KernelBridgeServer :=
  let requestId := request.requestId
  let targetId := request.targetRequestId
  if targetId = "" ∨ 160 < targetId.length then
    (.protocolError "bridge cancellation target is invalid", s)
  else if request.executionId = "" ∨ request.outerToolCallId = "" then
    (.protocolError "bridge cancellation origin is missing", s)
  else
    match (Dict.get? s.active targetId).bind fun n => (s.invocations[n]?).map (n, ·) with
    | some (n, active) =>
        if active.executionId ≠ request.executionId ∨
            active.outerToolCallId ≠ request.outerToolCallId then
          (.refused requestId "cancel_origin_mismatch"
            "Cancellation origin does not own the target request.", s)
        else (.cancelled requestId targetId true, s.signal (· == n))
    | none =>
        -- the cancellation came first: it waits for its target as a tombstone
        let prior := Dict.get? s.pendingCancellations targetId
        if prior.any fun p => p != request.origin then
          (.refused requestId "cancel_origin_mismatch"
            "Cancellation origin differs from the pending request.", s)
        else if prior = none ∧ c.cancellationCapacity ≤ s.pendingCancellations.length then
          (.refused requestId "cancel_capacity_exhausted"
            "Pending cancellation capacity is full; cancellation was not accepted.", s)
        else
          (.cancelled requestId targetId false,
            -- `move_to_end`: the newest tombstone is the last entry
            { s with pendingCancellations :=
                Dict.restrict (· ≠ targetId) s.pendingCancellations ++
                  [(targetId, request.origin)] })

/-- The first guarded section of `_dispatch` for `invoke` and `invoke_many`. -/
def admitRequest (s : KernelBridgeServer) (request : BridgeRequest) (fingerprint : String) :
    Answer × KernelBridgeServer :=
  let requestId := request.requestId
  match (Dict.get? s.active requestId).bind fun n => s.invocations[n]? with
  | some active =>
      if active.fingerprint = fingerprint then
        (.refused requestId "duplicate_request_in_flight"
          "Bridge request ID is already in flight.", s)
      else
        (.refused requestId "duplicate_request_conflict"
          "Bridge request ID conflicts with the active payload.", s)
  | none =>
      let pending := Dict.get? s.pendingCancellations requestId
      if pending.any fun p => p != request.origin then
        (.refused requestId "cancel_origin_mismatch"
          "Request ID has a cancellation owned by another execution.", s)
      else
        (.admitted s.invocations.length,
          { s with
            pendingCancellations := Dict.restrict (· ≠ requestId) s.pendingCancellations
            invocations := s.invocations ++
              [{ requestId := requestId
                 executionId := request.executionId
                 outerToolCallId := request.outerToolCallId
                 fingerprint := fingerprint
                 cancellation := pending == some request.origin || s.closing
                 handling := false
                 settled := false }]
            active := Dict.set s.active requestId s.invocations.length })

/-- `_dispatch`, up to the moment an invocation waits for its handler. -/
def dispatch (H : Host) (c : BridgeConfig) (s : KernelBridgeServer) (request : BridgeRequest) :
    Answer × KernelBridgeServer :=
  if request.requestId = "" ∨ 160 < request.requestId.length then
    (.protocolError "bridge request ID is invalid", s)
  else if request.readGeneration ≠ c.generation then
    (.protocolError "bridge kernel generation is stale", s)
  else if request.op = "handshake" then
    if request.handshake ≠ bridgeHandshake then
      (.protocolError "kernel bridge handshake is unsupported", s)
    else (.handshaken request.requestId, { s with handshaken := true })
  else if request.op ∉ ["invoke", "invoke_many", "cancel"] then
    (.protocolError "kernel bridge operation is unsupported", s)
  else if ¬ s.handshaken then
    (.protocolError "kernel bridge handshake is incomplete", s)
  else if request.op = "cancel" then s.cancelRequest c request
  else
    match requestFingerprint H request.op (.dict (entriesToPy request.payload)) with
    | .error e => (.hostError e.message, s)
    | .ok fingerprint => s.admitRequest request fingerprint

/-- The invocations whose handlers are running. -/
def inFlight (s : KernelBridgeServer) : Nat := s.invocations.countP (·.handling)

/-- An invocation gets a slot, if slots are counted, and its handler starts. -/
def enter (c : BridgeConfig) (s : KernelBridgeServer) (n : Nat) : KernelBridgeServer :=
  if c.invokeHandlerLimitsConcurrency ∨ s.inFlight < c.maxInFlight then
    { s with invocations := s.invocations.modify n fun i =>
        if i.settled then i else { i with handling := true } }
  else s

/-- The `finally` of `_dispatch`: the handler returned or raised, or the dispatch
was cancelled before the handler started. -/
def complete (s : KernelBridgeServer) (n : Nat) : KernelBridgeServer :=
  match s.invocations[n]? with
  | none => s
  | some i =>
      if i.settled then s
      else
        { s with
          invocations := s.invocations.modify n fun i =>
            { i with handling := false, settled := true }
          active := Dict.restrict (· ≠ i.requestId) s.active }

/-- `cancel_execution`, up to the moment it waits for the invocations to settle. -/
def cancelExecution (s : KernelBridgeServer) (executionId : String) : KernelBridgeServer :=
  s.signal fun n => s.isActive n &&
    (s.invocations[n]?).any fun i => i.executionId == executionId

/-- `forget_execution` -/
def forgetExecution (s : KernelBridgeServer) (executionId : String) : KernelBridgeServer :=
  { s with pendingCancellations :=
      s.pendingCancellations.filter fun e => e.2.1 ≠ executionId }

/-- `close`, as far as the tables go. -/
def close (s : KernelBridgeServer) : KernelBridgeServer :=
  { s with closing := true }.signal s.isActive

/-- `_handle`, when a connection ends before its dispatch: the request it sent is
cancelled. -/
def abandon (s : KernelBridgeServer) (requestId : String) : KernelBridgeServer :=
  s.signal fun n => Dict.get? s.active requestId == some n

end KernelBridgeServer

/-! ## The machine -/

/-- What can happen next. -/
inductive BridgeStep
  | dispatch (request : BridgeRequest)
  | enter (invocation : Nat)
  | complete (invocation : Nat)
  | cancelExecution (executionId : String)
  | forgetExecution (executionId : String)
  | abandon (requestId : String)
  | close

/-- The bridge of one kernel generation. -/
def bridge (H : Host) (c : BridgeConfig) : Machine KernelBridgeServer BridgeStep Answer where
  start := .init
  step
    | .dispatch request, s => s.dispatch H c request
    | .enter n, s => (.done, s.enter c n)
    | .complete n, s => (.done, s.complete n)
    | .cancelExecution executionId, s => (.done, s.cancelExecution executionId)
    | .forgetExecution executionId, s => (.done, s.forgetExecution executionId)
    | .abandon requestId, s => (.done, s.abandon requestId)
    | .close, s => (.done, s.close)

end KernelRuntime
end VariantOne
