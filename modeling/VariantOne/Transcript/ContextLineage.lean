import VariantOne.Core.Dynamic

/-!
# Message objects and their receipts

A transcript is a list of message objects.  Objects are changed in place, so the
model keeps them in a store and a transcript as a list of addresses; what the
transcript says is what `load` reads there.

One entry of a message is no part of it: under a reserved key the host keeps a
receipt of how the context of a request was chosen.  `core` is the message
without it.

The functions that keep, annotate or drop a message are told by what `core` and `load` give before and
after, so a result about contents need not mention addresses.  A message may stand in two transcripts, and
a change through one of them is seen through the other.
-/

namespace VariantOne
namespace Transcript

/-- The message objects, by address. -/
abbrev Store := List PyDict

/-- The object at an address. -/
def cell (store : Store) (address : Nat) : PyDict := (store[address]?).getD []

/-- The messages of a transcript. -/
def load (store : Store) (transcript : List Nat) : List PyDict := transcript.map (cell store)

/-- `copy.deepcopy(transcript)`: an object that occurs twice is copied once. -/
def deepcopy (store : Store) (transcript : List Nat) : Store × List Nat :=
  (store ++ store, transcript.map (store.length + ·))

/-! ## Receipts -/

/-- `RESERVED_MESSAGE_KEY` -/
def reservedMessageKey : String := "_variant1_context_receipt"

/-- A message without its receipt. -/
def core (message : PyDict) : PyDict := Dict.restrict (· ≠ reservedMessageKey) message

/-- `_uint` -/
def uint (P : Interpreter) (value : Option PyValue) : Int :=
  match P.toInt (orElse value (.int 0)) with
  | some i => max 0 (min i 2147483647)
  | none => 0

/-- `entries.setdefault(key, {})`, where the value is used as a dictionary. -/
def subDict (entries : PyDict) (key : String) : Except Raised PyDict :=
  match (Dict.get? entries key).getD (.dict []) with
  | .dict d => .ok d
  | _ => .error ⟨.typeError, "object has no attribute 'get'"⟩

/-- `_counter(receipt, "transform", kind)`: the total, and the receipt with the
counters advanced. -/
def transformCounter (P : Interpreter) (receipt : PyDict) (kind : String) :
    Except Raised (Int × PyDict) := do
  let aggregates ← subDict receipt "aggregates"
  let total := uint P (Dict.get? aggregates "transform_total") + 1
  let aggregates := Dict.set aggregates "transform_total" (.int total)
  let byKind ← subDict aggregates "transforms_by_kind"
  let byKind := Dict.set byKind kind (.int (uint P (Dict.get? byKind kind) + 1))
  let aggregates := Dict.set aggregates "transforms_by_kind" (.dict byKind)
  return (total, Dict.set receipt "aggregates" (.dict aggregates))

/-- `MAX_TRANSFORMS` -/
def maxTransforms : Nat := 64

/-- `add_transform` -/
def addTransform (P : Interpreter) (receipt : PyDict) (kind reason : String) (metrics : PyDict) :
    Except Raised PyDict := do
  let (total, receipt) ← transformCounter P receipt kind
  let row : PyDict :=
    [("id", .str s!"ct_{total}"), ("kind", .str kind), ("reason", .str reason)] ++ metrics
  match (Dict.get? receipt "transforms").getD (.list []) with
  | .list rows =>
      if rows.length < maxTransforms then
        return Dict.set receipt "transforms" (.list (rows ++ [.dict row]))
      else
        let truncated := uint P (Dict.get? receipt "transforms_truncated_count") + 1
        return Dict.set receipt "transforms_truncated_count" (.int truncated)
  | _ => throw ⟨.typeError, "object has no attribute 'append'"⟩

/-- The receipt of a message. -/
def receipt? (message : PyDict) : Option PyDict :=
  (Dict.get? message reservedMessageKey).bind PyValue.dict?

/-- `add_transform_to_messages`: the first receipt of the transcript is changed in
place. -/
def addTransformToMessages (P : Interpreter) (store : Store) (transcript : List Nat)
    (kind reason : String) (metrics : PyDict) : Except Raised Store :=
  match transcript.find? fun a => (receipt? (cell store a)).isSome with
  | none => .ok store
  | some a =>
      match addTransform P ((receipt? (cell store a)).getD []) kind reason metrics with
      | .error e => .error e
      | .ok receipt =>
          .ok (store.modify a fun m => Dict.set m reservedMessageKey (.dict receipt))

/-! ## Metrics -/

/-- The characters and the UTF-8 bytes of some texts. -/
structure Metrics where
  messageCount : Nat
  chars : Nat
  utf8Bytes : Nat
  deriving DecidableEq, Repr

def Metrics.addText (m : Metrics) (value : Option PyValue) : Metrics :=
  match value.bind PyValue.str? with
  | some s => { m with chars := m.chars + s.length, utf8Bytes := m.utf8Bytes + s.utf8ByteSize }
  | none => m

/-- The texts of a content. -/
def Metrics.addContent (m : Metrics) (content : Option PyValue) : Metrics :=
  match content with
  | some (.str s) => m.addText (some (.str s))
  | some (.list parts) => parts.foldl (fun m part =>
      match part with
      | .dict p => (m.addText (Dict.get? p "text")).addText (Dict.get? p "content")
      | _ => m) m
  | _ => m

/-- The names and arguments of calls. -/
def Metrics.addCalls (m : Metrics) (calls : List PyValue) : Metrics :=
  calls.foldl (fun m call =>
    match call with
    | .dict c =>
        let fn := ((Dict.get? c "function").bind PyValue.dict?).getD []
        (m.addText (Dict.get? fn "name")).addText (Dict.get? fn "arguments")
    | _ => m) m

/-- `for call in message.get("tool_calls") or []` -/
def toolCalls (message : PyDict) : Except Raised (List PyValue) :=
  (orElse (Dict.get? message "tool_calls") (.list [])).iter

/-- `message_metrics` -/
def messageMetrics (m : Metrics) : List PyDict → Except Raised Metrics
  | [] => .ok m
  | message :: messages =>
      match toolCalls message with
      | .error e => .error e
      | .ok calls =>
          let m := { m with messageCount := m.messageCount + 1 }
          messageMetrics ((m.addContent (Dict.get? message "content")).addCalls calls) messages

end Transcript
end VariantOne
