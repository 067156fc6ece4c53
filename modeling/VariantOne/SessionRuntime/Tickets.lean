import VariantOne.Lib.Machine
import VariantOne.SessionRuntime.Models

/-!
# Input tickets

A ticket carries one text of the user from the queue to the model.  Every function
of the repository is one transaction; `claim_input` is two of them, and so a Stop,
a park or another writer can commit between the selection of a ticket and its
preparation.

The functions that list tickets and then move each (`cancel_queued_input_tickets`,
`promote_recovered_inputs` and the reconciliation after a restart) leave their
moves *pending*: each is a transaction of its own, and expects the state the
ticket was listed in.

A call of the registry answers from the live runtime and the tables; what it returns to the model is the
row as its second transaction leaves it.  The handover can therefore show a ticket that was cancelled in
between, which is the subject of `TicketDelivery`.
-/

namespace VariantOne
namespace SessionRuntime

/-! ## 1.  The repository -/

/-- A move that a list of tickets has decided on. -/
structure PendingMove where
  ticketId : String
  target : TicketState
  expected : List TicketState
  proof : Option PyDict
  error : String

/-- The tickets, the revisions of the queues, and the calls between two of their
transactions. -/
structure Queue where
  tickets : TicketTable
  /-- `astb_input_queue_revision`, kept by triggers. -/
  revisions : List (String × Nat)
  /-- The tickets `claim_input` calls have selected and not yet prepared. -/
  claiming : List InputTicket
  pending : List PendingMove

namespace Queue

/-- The queue before the first input. -/
def empty : Queue := ⟨Table.empty, [], [], []⟩

def ticket? (q : Queue) (ticketId : String) : Option InputTicket := q.tickets.find? ticketId

/-- `_queue_revision` -/
def revision (q : Queue) (chatId : String) : Nat := (Dict.get? q.revisions chatId).getD 0

/-- The triggers on `n` rows of a chat. -/
def bump (q : Queue) (chatId : String) (n : Nat) : Queue :=
  { q with revisions := Dict.set q.revisions chatId (q.revision chatId + n) }

/-- Update the row of one ticket. -/
def update (q : Queue) (row : InputTicket) (f : InputTicket → InputTicket)
    (hf : ∀ r, (f r).ticketId = r.ticketId) : Queue :=
  { q with tickets := q.tickets.updateWhere (fun r => r.ticketId == row.ticketId) f hf }.bump
    row.chatId 1

end Queue

/-- `ORDER BY created_at, ticket_id` -/
def inOrder (rows : List InputTicket) : List InputTicket :=
  rows.insertionSort fun a b =>
    a.createdAt < b.createdAt ∨ a.createdAt = b.createdAt ∧ a.ticketId ≤ b.ticketId

/-- `list_tickets` -/
def listTickets (q : Queue) (chatId : String) (states : List TicketState) : List InputTicket :=
  inOrder (q.tickets.rows.filter fun r => r.chatId == chatId &&
    (states.isEmpty || states.contains r.state))

/-- The row `create_ticket` inserts. -/
def newTicket (ticketId chatId delivery text clientId source attachmentId : String) (now : ℚ) :
    InputTicket where
  ticketId := ticketId
  chatId := chatId
  delivery := delivery
  text := text
  state := .queued
  clientId := clientId
  source := source
  attachmentId := attachmentId
  runId := ""
  createdAt := now
  updatedAt := now
  selectedAt := 0
  transcriptCommittedAt := 0
  completedAt := 0
  proof := []
  error := ""

/-- The transaction of `create_ticket`, with the lifecycle of the chat's runtime. -/
def insertTicket (lifecycle : Option Lifecycle) (row : InputTicket) (q : Queue) :
    Except SessionError (InputTicket × Queue) :=
  if lifecycle ≠ some .active then
    .error (.runtime s!"chat runtime is not active: {row.chatId}")
  else
    match q.ticket? row.ticketId with
    | some existing =>
        if existing.chatId = row.chatId ∧ existing.delivery = row.delivery ∧
            existing.text = row.text then .ok (existing, q)
        else .error (.value "duplicate input ticket ID conflicts with prior input")
    | none =>
        match q.tickets.insert? row with
        | some tickets => .ok (row, { q with tickets := tickets }.bump row.chatId 1)
        | none => .error (.value "duplicate input ticket ID conflicts with prior input")

/-- `create_ticket` -/
def createTicket (lifecycle : Option Lifecycle) (chatId text delivery clientId source attachmentId
    ticketId uuid : String) (now : ℚ) (q : Queue) : Except SessionError (InputTicket × Queue) :=
  if delivery ∉ ["steer", "follow_up", "clarification"] then
    .error (.value s!"invalid input delivery: {delivery}")
  else if strip text = "" then .error (.value "input ticket text is required")
  else
    insertTicket lifecycle (newTicket (if ticketId = "" then "ticket_" ++ uuid else ticketId) chatId
      delivery (strip text) clientId source attachmentId now) q

/-- What a claim writes. -/
def selectChange (runId : String) (now : ℚ) (r : InputTicket) : InputTicket :=
  { r with state := .selected, runId := runId, selectedAt := now, updatedAt := now }

theorem ticketId_selectChange (runId : String) (now : ℚ) (r : InputTicket) :
    (selectChange runId now r).ticketId = r.ticketId := rfl

/-- The deliveries a claim takes. -/
def choices (delivery : String) : List String :=
  if delivery ≠ "follow_up" then [delivery] else ["follow_up", "clarification"]

/-- `claim_ticket` -/
def claimTicket (chatId delivery runId : String) (now : ℚ) (q : Queue) :
    Option InputTicket × Queue :=
  match (inOrder (q.tickets.rows.filter fun r => r.chatId == chatId && r.state == .queued &&
      (choices delivery).contains r.delivery)).head? with
  | none => (none, q)
  | some row =>
      (some (selectChange runId now row),
        q.update row (selectChange runId now) (ticketId_selectChange runId now))

/-- What a transition writes. -/
def transitionChange (state : TicketState) (proof : Option PyDict) (error : String) (now : ℚ)
    (r : InputTicket) : InputTicket :=
  { r with
    state := state
    updatedAt := now
    transcriptCommittedAt :=
      if state = .transcriptCommitting ∨ state = .completed then now else r.transcriptCommittedAt
    completedAt := if state.terminal then now else r.completedAt
    proof := match proof with
      | some (p :: ps) => p :: ps
      | _ => r.proof
    error := error }

theorem ticketId_transitionChange (state : TicketState) (proof : Option PyDict) (error : String) (now : ℚ) (r : InputTicket) :
    (transitionChange state proof error now r).ticketId = r.ticketId := rfl

/-- `transition_ticket` -/
def transitionTicket (ticketId : String) (state : TicketState) (expected : List TicketState)
    (proof : Option PyDict) (error : String) (now : ℚ) (q : Queue) : Option InputTicket × Queue :=
  match q.ticket? ticketId with
  | none => (none, q)
  | some row =>
      if expected ≠ [] ∧ row.state ∉ expected then (some row, q)
      else (some (transitionChange state proof error now row),
        q.update row (transitionChange state proof error now)
          (ticketId_transitionChange state proof error now))

/-- The states a park takes a ticket from. -/
def parkable : List TicketState := [.queued, .resumeQueued, .selected, .preparing]

/-- `park_tickets` -/
def parkTickets (chatId reason : String) (now : ℚ) (q : Queue) : List InputTicket × Queue :=
  let parks (r : InputTicket) : Bool := r.chatId == chatId && parkable.contains r.state
  let change (r : InputTicket) : InputTicket :=
    { r with state := .parked, updatedAt := now, error := reason }
  let rows := q.tickets.rows.filter parks
  (inOrder (rows.map change),
    { q with tickets := q.tickets.updateWhere parks change fun _ => rfl }.bump chatId rows.length)

/-- What a continue writes. -/
def continueChange (now : ℚ) (r : InputTicket) : InputTicket :=
  { r with
    state := .preparing, delivery := "follow_up", runId := "", selectedAt := now,
    updatedAt := now, error := "" }

theorem ticketId_continueChange (now : ℚ) (r : InputTicket) :
    (continueChange now r).ticketId = r.ticketId := rfl

/-- What a removal writes. -/
def removeChange (now : ℚ) (r : InputTicket) : InputTicket :=
  { r with state := .cancelled, completedAt := now, updatedAt := now, error := "removed_by_user" }

theorem ticketId_removeChange (now : ℚ) (r : InputTicket) :
    (removeChange now r).ticketId = r.ticketId := rfl

/-- `queued_ticket_command` -/
def queuedTicketCommand (chatId ticketId : String) (expectedRevision : PyValue)
    (operation : String) (now : ℚ) (q : Queue) : Except SessionError (InputTicket × Queue) :=
  match expectedRevision with
  | .int revision =>
      if revision < 0 then .error (.value "invalid_queue_revision")
      else if revision ≠ q.revision chatId then .error (.runtime "stale_queue_revision")
      else
        match (q.ticket? ticketId).filter (·.chatId == chatId) with
        | none => .error (.lookup "queue_ticket_not_found")
        | some row =>
            if operation = "continue" then
              if row.state ≠ .parked then .error (.runtime "ticket_not_parked")
              else
                .ok (continueChange now row,
                  q.update row (continueChange now) (ticketId_continueChange now))
            else if operation = "remove" then
              if row.state ∉ [.queued, .resumeQueued, .parked] then
                .error (.runtime "ticket_not_removable")
              else
                .ok (removeChange now row, q.update row (removeChange now) (ticketId_removeChange now))
            else .error (.value "unknown_queue_operation")
  | _ => .error (.value "invalid_queue_revision")

/-! ## 2.  The registry -/

/-- `enqueue_input`, with what it finds of the live runtime. -/
def enqueueInput (live : Option LiveRuntime) (expectedAdmissionId expectedRunId : String)
    (create : Queue → Except SessionError (InputTicket × Queue)) (q : Queue) :
    Except SessionError (InputTicket × Queue) :=
  let admission := live.bind (·.admission)
  if live.any fun l => l.settingsChangeId ≠ "" then
    .error (.runtime "session_configuration_pending")
  else if (expectedAdmissionId ≠ "" ∧ ¬ admission.any (·.admissionId == expectedAdmissionId)) ∨
      (expectedRunId ≠ "" ∧ ¬ admission.any (·.runId == expectedRunId)) then
    .error (.runtime "stale_run")
  else if admission.any fun a => ¬ a.acceptingInputs then
    .error (.runtime "active chat turn is finalizing")
  else create q

/-- The run id a claim writes. -/
def claimedRunId (live : Option LiveRuntime) (runId : String) : String :=
  match live.bind (·.admission) with
  | some admission => if admission.runId ≠ "" then admission.runId else runId
  | none => runId

/-- The first transaction of `claim_input`. -/
def selectInput (live : Option LiveRuntime) (chatId delivery runId : String) (now : ℚ)
    (q : Queue) : Option InputTicket × Queue :=
  if (live.bind (·.admission)).any fun a => ¬ a.acceptingInputs then (none, q)
  else
    match claimTicket chatId delivery (claimedRunId live runId) now q with
    | (none, q) => (none, q)
    | (some ticket, q) => (some ticket, { q with claiming := q.claiming ++ [ticket] })

/-- The second transaction of `claim_input`: what is handed to the model is the row
as the transition returns it, whether it moved or not. -/
def prepareInput (ticket : InputTicket) (now : ℚ) (q : Queue) : InputTicket × Queue :=
  let (updated, q) := transitionTicket ticket.ticketId .preparing [.selected] none "" now q
  (updated.getD ticket, q)

/-- The moves `cancel_queued_input_tickets` decides on. -/
def cancelMoves (reason : String) (tickets : List InputTicket) : List PendingMove :=
  tickets.map fun t => ⟨t.ticketId, .cancelled, [t.state], none, reason⟩

/-- The moves `promote_recovered_inputs` decides on. -/
def promoteMoves (deliveredIds : List String) (includeUndelivered : Bool)
    (tickets : List InputTicket) : List PendingMove :=
  (tickets.filter fun t => deliveredIds.contains t.ticketId || includeUndelivered).map fun t =>
    ⟨t.ticketId, if deliveredIds.contains t.ticketId then .running else .queued, [.resumeQueued],
      none, ""⟩

/-- The moves of the reconciliation after a restart: a ticket whose message is in the
transcript is completed, any other one is held for an explicit resume. -/
def reconcileMoves (proven : List String) (tickets : List InputTicket) : List PendingMove :=
  tickets.map fun t =>
    if proven.contains t.ticketId then
      ⟨t.ticketId, .completed, [t.state],
        some [("chat_id", .str t.chatId), ("ticket_id", .str t.ticketId)], ""⟩
    else ⟨t.ticketId, .resumeQueued, [t.state], none, "held_for_explicit_resume_after_process_restart"⟩

/-! ## 3.  Interleaved transactions -/

/-- One transaction, with what it finds outside the queue. -/
inductive QueueCall where
  | enqueue (live : Option LiveRuntime) (lifecycle : Option Lifecycle)
      (expectedAdmissionId expectedRunId chatId text delivery clientId source attachmentId
        ticketId uuid : String) (now : ℚ)
  /-- The first transaction of `claim_input`. -/
  | select (live : Option LiveRuntime) (chatId delivery runId : String) (now : ℚ)
  /-- The second transaction of the `k`-th `claim_input` under way. -/
  | prepare (k : Nat) (now : ℚ)
  /-- `park_queued_input_tickets` -/
  | park (chatId reason : String) (now : ℚ)
  | command (chatId ticketId : String) (expectedRevision : PyValue) (operation : String) (now : ℚ)
  /-- The listing of `cancel_queued_input_tickets`. -/
  | listCancel (chatId reason : String)
  /-- The listing of `promote_recovered_inputs`. -/
  | listPromote (chatId : String) (deliveredIds : List String) (includeUndelivered : Bool)
  /-- The listing of the reconciliation after a restart. -/
  | listReconcile (chatId : String) (proven : List String)
  /-- The `k`-th pending move. -/
  | move (k : Nat) (now : ℚ)
  /-- `record_input_delivery` -/
  | recordDelivery (ticketId : String) (proof : Option PyDict) (now : ℚ)
  /-- `begin_transcript_commit`, for one row. -/
  | beginCommit (ticketId : String) (now : ℚ)
  /-- `complete_transcript_commit`, for one row. -/
  | completeCommit (ticketId : String) (proof : Option PyDict) (now : ℚ)
  /-- `fail_transcript_commit`, for one row. -/
  | failCommit (ticketId : String) (proof : Option PyDict) (error : String) (now : ℚ)

/-- What a transaction returns. -/
inductive QueueReply where
  | nothing
  | raised (e : SessionError)
  | created (ticket : InputTicket)
  | claimed (ticket : InputTicket)
  /-- The ticket `claim_input` hands to the model. -/
  | handed (ticket : InputTicket)
  | parked (tickets : List InputTicket)
  | commanded (operation : String) (ticket : InputTicket)
  /-- A pending move, with the row as it was found. -/
  | moved (m : PendingMove) (found : Option InputTicket)
  /-- A delivery or transcript transition to this state. -/
  | recorded (target : TicketState)

namespace Queue

/-- A transition by id. -/
def record (ticketId : String) (target : TicketState) (expected : List TicketState)
    (proof : Option PyDict) (error : String) (now : ℚ) (q : Queue) : QueueReply × Queue :=
  (.recorded target, (transitionTicket ticketId target expected proof error now q).2)

/-- List tickets and leave their moves pending. -/
def defer (q : Queue) (moves : List PendingMove) : QueueReply × Queue :=
  (.nothing, { q with pending := q.pending ++ moves })

def step : QueueCall → Queue → QueueReply × Queue
  | .enqueue live lifecycle expectedAdmissionId expectedRunId chatId text delivery clientId source
      attachmentId ticketId uuid now, q =>
      match enqueueInput live expectedAdmissionId expectedRunId (createTicket lifecycle chatId text
          delivery clientId source attachmentId ticketId uuid now) q with
      | .error e => (.raised e, q)
      | .ok (ticket, q) => (.created ticket, q)
  | .select live chatId delivery runId now, q =>
      match selectInput live chatId delivery runId now q with
      | (none, q) => (.nothing, q)
      | (some ticket, q) => (.claimed ticket, q)
  | .prepare k now, q =>
      match q.claiming[k]? with
      | none => (.nothing, q)
      | some ticket =>
          (.handed (prepareInput ticket now q).1,
            { (prepareInput ticket now q).2 with claiming := q.claiming.eraseIdx k })
  | .park chatId reason now, q =>
      (.parked (parkTickets chatId reason now q).1, (parkTickets chatId reason now q).2)
  | .command chatId ticketId expectedRevision operation now, q =>
      match queuedTicketCommand chatId ticketId expectedRevision operation now q with
      | .error e => (.raised e, q)
      | .ok (ticket, q) => (.commanded operation ticket, q)
  | .listCancel chatId reason, q => q.defer (cancelMoves reason (listTickets q chatId parkable))
  | .listPromote chatId deliveredIds includeUndelivered, q =>
      q.defer (promoteMoves deliveredIds includeUndelivered
        (listTickets q chatId [.resumeQueued]))
  | .listReconcile chatId proven, q =>
      q.defer (reconcileMoves proven (listTickets q chatId
        [.queued, .selected, .preparing, .transcriptCommitting, .running]))
  | .move k now, q =>
      match q.pending[k]? with
      | none => (.nothing, q)
      | some m =>
          (.moved m (q.ticket? m.ticketId),
            { (transitionTicket m.ticketId m.target m.expected m.proof m.error now q).2 with
              pending := q.pending.eraseIdx k })
  | .recordDelivery ticketId proof now, q =>
      q.record ticketId .running [.selected, .preparing] proof "" now
  | .beginCommit ticketId now, q =>
      q.record ticketId .transcriptCommitting [.running, .preparing, .selected, .parked] none "" now
  | .completeCommit ticketId proof now, q =>
      q.record ticketId .completed [.transcriptCommitting, .running, .preparing] proof "" now
  | .failCommit ticketId proof error now, q =>
      q.record ticketId .transcriptFailed [.transcriptCommitting, .running, .preparing] proof error
        now

end Queue

/-- The queue under every interleaving. -/
def tickets : Machine Queue QueueCall QueueReply := ⟨Queue.empty, Queue.step⟩

end SessionRuntime
end VariantOne
