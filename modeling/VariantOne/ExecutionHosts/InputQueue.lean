import VariantOne.Lib.Dict
import VariantOne.Lib.Machine

/-!
# Input of a process

Writes to the standard input of a process wait in a queue, and a thread of the queue's own hands them to the
runtime, one after the other.  Each section under the queue's condition is one step; what the writer does
between two sections (the call of the runtime, and telling of a receipt) is a step as well, so that `close`
and `submit` can fall anywhere.

A missing receipt is a `KeyError`: it ends the writer where the writer looks for it.

The history keeps what the runtime was given and what each receipt was told, in the order in which it
happened.  `InputDelivery` reads its results off this history and the queue; nothing in this module is
proved about runs.
-/

namespace VariantOne
namespace ExecutionHosts

/-! ## 1.  The queue -/

/-- A write in the queue: its identity and its bytes. -/
structure Write where
  id : Nat
  raw : List UInt8
  deriving DecidableEq

inductive ReceiptState where
  | queued | writing | cancelRequested | written | partialWrite | unknownEffect | cancelled
  deriving DecidableEq, Repr

/-- The states that a receipt ends in. -/
def finalStates : List ReceiptState := [.written, .partialWrite, .unknownEffect, .cancelled]

structure Receipt where
  writeId : Nat
  state : ReceiptState
  acceptedBytes : Nat
  writtenBytes : Option Int
  cancelRequested : Bool
  error : Option (String × String) := none
  deriving DecidableEq

/-- The receipt of a write that is accepted. -/
def Write.receipt (w : Write) : Receipt where
  writeId := w.id
  state := .queued
  acceptedBytes := w.raw.length
  writtenBytes := some 0
  cancelRequested := false

structure Limits where
  maxBytes : Nat := 1024 * 1024
  maxWrites : Nat := 64

/-- `InputQueue` -/
structure InputQueue where
  queue : List Write := []
  receipts : List (Nat × Receipt) := []
  pendingBytes : Int := 0
  active : Option Nat := none
  closed : Bool := false
  deriving DecidableEq

/-- What `submit` raises. -/
inductive InputError where
  | executionUnavailable (message : String)
  | executionValidationError (message : String)
  | callback
  deriving DecidableEq, Repr

/-- `submit`; `id` is the identity of the write, and `callbackFails` whether telling of its receipt raises. -/
def InputQueue.submit (L : Limits) (q : InputQueue) (w : Write) (callbackFails : Bool) :
    Except InputError InputQueue :=
  if q.closed then .error (.executionUnavailable "stdin is closed for this process generation")
  else if q.pendingBytes + w.raw.length > L.maxBytes ∨
      q.queue.length + q.active.toList.length ≥ L.maxWrites then
    .error (.executionValidationError
      "stdin backpressure: pending input queue is full; inspect delivery before retrying")
  else if callbackFails then .error .callback
  else .ok { q with
    receipts := Dict.set q.receipts w.id w.receipt
    queue := q.queue ++ [w]
    pendingBytes := q.pendingBytes + w.raw.length }

/-- `status`: at most sixteen receipts, the active one first and then the newest; `none` is a `KeyError`. -/
def InputQueue.status (q : InputQueue) : Option (List Receipt) :=
  ((q.active.toList ++ (Dict.keys q.receipts).reverse).eraseDups.take 16).mapM (Dict.get? q.receipts)

def Receipt.cancel (r : Receipt) : Receipt := { r with state := .cancelled, cancelRequested := true }

def Receipt.requestCancel (r : Receipt) : Receipt :=
  { r with state := .cancelRequested, writtenBytes := none, cancelRequested := true }

/-- The loop of `close` over the queue: the receipts it cancels. -/
def InputQueue.cancelQueued : List Write → InputQueue → Option (List Receipt) × InputQueue
  | [], q => (some [], { q with queue := [] })
  | w :: rest, q =>
      let q := { q with queue := rest, pendingBytes := q.pendingBytes - w.raw.length }
      match Dict.get? q.receipts w.id with
      | none => (none, q)
      | some receipt =>
          let (cancelled, q) := cancelQueued rest
            { q with receipts := Dict.set q.receipts w.id receipt.cancel }
          (cancelled.map (receipt.cancel :: ·), q)

/-- `close`, as far as its section goes. -/
def InputQueue.close (q : InputQueue) : Option (List Receipt) × InputQueue :=
  let (cancelled, q) := cancelQueued q.queue { q with closed := true }
  match cancelled, q.active with
  | some cancelled, some id =>
      match Dict.get? q.receipts id with
      | none => (none, q)
      | some receipt =>
          (some cancelled, { q with receipts := Dict.set q.receipts id receipt.requestCancel })
  | cancelled, _ => (cancelled, q)

/-! ## 2.  The writer -/

/-- What `runtime.write` returns, or the text and the type of what it raises. -/
abbrev Outcome := Except (String × String) Int

/-- The first section of a turn of the writer; `none` for the write is a `KeyError`. -/
def InputQueue.take (q : InputQueue) (w : Write) (rest : List Write) : Option Write × InputQueue :=
  let q := { q with queue := rest, active := some w.id }
  match Dict.get? q.receipts w.id with
  | none => (none, q)
  | some receipt =>
      (some w, { q with
        receipts := Dict.set q.receipts w.id { receipt with state := .writing, writtenBytes := none } })

/-- The state that a call of the runtime leaves its write in. -/
def Write.finalState (w : Write) : Outcome → ReceiptState
  | .ok written => if written = w.raw.length then .written else .partialWrite
  | .error _ => .unknownEffect

/-- What a call of the runtime makes of the receipt of its write. -/
def Receipt.after (r : Receipt) (w : Write) (outcome : Outcome) : Receipt :=
  match outcome with
  | .ok written => { r with state := w.finalState outcome, writtenBytes := some written }
  | .error error => { r with state := w.finalState outcome, writtenBytes := none, error := some error }

/-- The oldest receipts go when there are more than 128. -/
def evict (receipts : List (Nat × Receipt)) : List (Nat × Receipt) := receipts.drop (receipts.length - 128)

/-- The second section of a turn of the writer. -/
def InputQueue.finish (q : InputQueue) (w : Write) (outcome : Outcome) : Option Receipt × InputQueue :=
  match Dict.get? q.receipts w.id with
  | none => (none, q)
  | some receipt =>
      (some (receipt.after w outcome), { q with
        receipts := evict (Dict.set q.receipts w.id (receipt.after w outcome))
        pendingBytes := q.pendingBytes - w.raw.length
        active := none })

/-- Where the writer is. -/
inductive Writer where
  | unstarted
  | waiting
  | taken (w : Write)
  | calling (w : Write)
  | returned (w : Write) (outcome : Outcome)
  | publishing (receipt : Receipt)
  | ended
  deriving DecidableEq

/-! ## 3.  Steps -/

/-- A queue with its writer and the receipts that the threads which closed it have still to tell of. -/
structure State where
  q : InputQueue := {}
  writer : Writer := .unstarted
  nextId : Nat := 0
  unpublished : List Receipt := []
  deriving DecidableEq

inductive Move where
  | submit (raw : List UInt8) (callbackFails : Bool)
  | close
  | publish (callbackFails : Bool)
  | take
  | call
  | answer (outcome : Outcome)
  | finish
  | report (callbackFails : Bool)
  deriving DecidableEq

inductive Reply where
  | accepted (w : Write)
  | refused (error : InputError)
  | closed (cancelled : List Receipt)
  | published (receipt : Receipt)
  | took (w : Write)
  | called (w : Write)
  | returned (w : Write) (outcome : Outcome)
  | finished (receipt : Receipt)
  | keyError
  | nothing
  deriving DecidableEq

/-- One step.  Telling of a receipt outside the condition logs what it raises. -/
def step (L : Limits) : Move → State → Reply × State
  | .submit raw callbackFails, s =>
      match s.q.submit L ⟨s.nextId, raw⟩ callbackFails with
      | .error error => (.refused error, s)
      | .ok q => (.accepted ⟨s.nextId, raw⟩, { s with
          q := q
          nextId := s.nextId + 1
          writer := if s.writer = .unstarted then .waiting else s.writer })
  | .close, s =>
      match s.q.close with
      | (none, q) => (.keyError, { s with q := q })
      | (some cancelled, q) =>
          (.closed cancelled, { s with q := q, unpublished := s.unpublished ++ cancelled })
  | .publish _, s =>
      match s.unpublished with
      | [] => (.nothing, s)
      | receipt :: rest => (.published receipt, { s with unpublished := rest })
  | .take, s =>
      match s.writer, s.q.queue with
      | .waiting, [] => (.nothing, if s.q.closed then { s with writer := .ended } else s)
      | .waiting, w :: rest =>
          match s.q.take w rest with
          | (none, q) => (.keyError, { s with q := q, writer := .ended })
          | (some w, q) => (.took w, { s with q := q, writer := .taken w })
      | _, _ => (.nothing, s)
  | .call, s =>
      match s.writer with
      | .taken w => (.called w, { s with writer := .calling w })
      | _ => (.nothing, s)
  | .answer outcome, s =>
      match s.writer with
      | .calling w => (.returned w outcome, { s with writer := .returned w outcome })
      | _ => (.nothing, s)
  | .finish, s =>
      match s.writer with
      | .returned w outcome =>
          match s.q.finish w outcome with
          | (none, q) => (.keyError, { s with q := q, writer := .ended })
          | (some receipt, q) => (.finished receipt, { s with q := q, writer := .publishing receipt })
      | _ => (.nothing, s)
  | .report _, s =>
      match s.writer with
      | .publishing receipt => (.published receipt, { s with writer := .waiting })
      | _ => (.nothing, s)

/-- The queue with its threads. -/
def machine (L : Limits) : Machine State Move Reply where
  start := {}
  step := step L

/-! ## 4.  What happened -/

/-- What the replies of a run say, the oldest first. -/
def gather {α : Type} (f : Reply → List α) : List (Move × Reply) → List α
  | [] => []
  | e :: h => gather f h ++ f e.2

/-- The writes that were accepted. -/
def accepted : List (Move × Reply) → List Write := gather fun
  | .accepted w => [w]
  | _ => []

/-- The writes that were taken from the queue. -/
def taken : List (Move × Reply) → List Write := gather fun
  | .took w => [w]
  | _ => []

/-- The writes that the runtime was called with. -/
def calls : List (Move × Reply) → List Write := gather fun
  | .called w => [w]
  | _ => []

/-- The calls of the runtime that have ended. -/
def returns : List (Move × Reply) → List (Write × Outcome) := gather fun
  | .returned w outcome => [(w, outcome)]
  | _ => []

/-- The receipts of the writes whose call ended. -/
def finished : List (Move × Reply) → List Receipt := gather fun
  | .finished receipt => [receipt]
  | _ => []

/-- The receipts of the writes that were cancelled. -/
def cancelled : List (Move × Reply) → List Receipt := gather fun
  | .closed receipts => receipts
  | _ => []

/-- The final receipts. -/
def finals : List (Move × Reply) → List Receipt := gather fun
  | .finished receipt => [receipt]
  | .closed receipts => receipts
  | _ => []

end ExecutionHosts
end VariantOne
