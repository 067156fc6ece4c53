import VariantOne.Capability.ToolRunner

/-!
# Batches are answered completely and in order

What a batch does at one call is a *cell*: the line and the outcome it appends, and what
it notes.  `Cells` says which cells a batch may make of its calls, and `runBatch_cells`
that a batch that returns has made them; so a fact about batches is an induction over
`Cells`.

Three clauses of the contract (`Answered`) do not hold of every batch, and `Fits` is the
condition on the calls and on what they meet under which they do: `answered_iff`.

`answered_iff` is the result: every batch that returns answers its calls one by one and in order, and the
three clauses that can fail hold exactly under `Fits`.  A case analysis over cells replaces one over the
program, which is looked at once, in `runBatch_cells`.
-/

namespace VariantOne
namespace Capability

variable {P : Interpreter} {maxResultChars i : Nat} {calls : List BatchCall}

/-! ## 1.  Cells -/

/-- What a batch does at one call. -/
structure Cell where
  line : String
  outcome : PyDict
  events : List BatchEvent

/-- Where a call leaves the loop. -/
inductive Exit where
  | stopped | invalid | unavailable
  | faulted (e : Raised)
  | refused (type text : String)
  | replayed (outcome : PyDict)
  | stoppedInside
  | cancelled (r : RunnerReceipt)
  | ran

/-- The exit of a call, by what it meets. -/
def exitOf (P : Interpreter) (call : BatchCall) : Exit :=
  if call.2.stopBefore then .stopped
  else if P.text (orElse (some call.1.status) (.str "ok")) = "invalid_arguments" then .invalid
  else if call.1.bound = false then .unavailable
  else match call.2.contextFault with
    | some e => .faulted e
    | none =>
        match call.2.reserved with
        | .raised type text => .refused type text
        | .replay outcome => .replayed outcome
        | .execute =>
            if call.2.stopInside then .stoppedInside
            else match call.2.invoked.cancelledReceipt with
              | some r => .cancelled r
              | none => .ran

/-- A call answered with this line and these fields. -/
def answered (P : Interpreter) (i : Nat) (c : PreparedCall) (line : String) (a : OutcomeArgs)
    (events : List BatchEvent) : Cell :=
  ⟨line, outcomeOf P i c a, events⟩

/-- The cell of a call that was never attempted. -/
def cancelledCell (P : Interpreter) (i : Nat) (call : BatchCall) (events : List BatchEvent) : Cell :=
  answered P i call.1 (s!"[{call.1.name P}] " ++ "cancelled before execution")
    { result := "cancelled before execution", ok := false, executed := false
      errorClass := .cancelled } events

/-- The cells of the calls that are left. -/
def cancelledCells (P : Interpreter) : Nat → List BatchCall → List Cell
  | _, [] => []
  | i, call :: calls => cancelledCell P i call [] :: cancelledCells P (i + 1) calls

/-- The line of an outcome that could not be persisted. -/
def unpersistedLine (P : Interpreter) (outcome : PyDict) (fault : String × String) : String :=
  let tool := P.text (orElse (Dict.get? outcome "tool") (.str "tool"))
  s!"[{tool}] " ++ unpersistedMessage fault.1

/-- The outcome of a cell is handed to `finish_provider_outer_call`; the line is another's
concern. -/
def Cell.handed (fault : Option (String × String)) (cell : Cell) : Cell :=
  match fault with
  | none => { cell with events := cell.events ++ [.finished cell.outcome] }
  | some f =>
      { cell with
        outcome := Dict.merge cell.outcome (unpersistedFields f)
        events := cell.events ++ [.finished cell.outcome, .unpersisted] }

/-- The line that stands last is replaced when the outcome could not be persisted. -/
def relined (P : Interpreter) (fault : Option (String × String)) (outcome : PyDict) :
    List Cell → List Cell
  | [] => []
  | [cell] =>
      match fault with
      | none => [cell]
      | some f => [{ cell with line := unpersistedLine P outcome f }]
  | cell :: cells => cell :: relined P fault outcome cells

/-- The cell of a call the batch goes on after. -/
def passed (P : Interpreter) (maxResultChars i : Nat) (call : BatchCall) : Option Cell :=
  match exitOf P call with
  | .invalid => some <| answered P i call.1
      (s!"[{call.1.name P}] invalid arguments: " ++ invalidMessage P call.1)
      { result := invalidMessage P call.1, ok := false, executed := false
        errorClass := .invalidArguments } []
  | .unavailable => some <| answered P i call.1
      (s!"[{call.1.name P}] error: " ++ "tool not available (unknown or disabled)")
      { result := "tool not available (unknown or disabled)", ok := false, executed := false
        errorClass := .unavailable } []
  | .refused type text =>
      let message := "durable outer-call admission failed before execution: " ++ s!"{type}: {text}"
      some <| answered P i call.1 (s!"[{call.1.name P}] error: " ++ message)
        { result := message, ok := false, executed := false, errorClass := .needsReconciliation } []
  | .replayed outcome =>
      let outcome := Dict.set outcome "durable_replay" (.bool true)
      some ⟨replayLine P outcome, outcome, if isCancelled P outcome then [.cancelled] else []⟩
  | .ran =>
      let a := ranOutcome P maxResultChars call.2.invoked
      let cell := answered P i call.1 (ranLine P call.1 a) a [.reserved, .started]
      (relined P call.2.finishFault cell.outcome [cell.handed call.2.finishFault]).head?
  | _ => none

/-- The cell of a call whose receipt is a cancelled one. -/
def receiptCell (P : Interpreter) (i : Nat) (call : BatchCall) (r : RunnerReceipt) : List Cell :=
  let message := if r.errorMessage.getD r.status = "" then "cancelled"
    else r.errorMessage.getD r.status
  let cell := answered P i call.1 (s!"[{call.1.name P}] " ++ message)
    { result := message, ok := false, executed := r.attempted, errorClass := .cancelled
      receipt := some r } [.reserved, .started]
  relined P call.2.finishFault cell.outcome [cell.handed call.2.finishFault]

/-- The cells of a batch that is stopped before it calls the broker. -/
def insideCells (P : Interpreter) (i : Nat) (call : BatchCall) (calls : List BatchCall) : List Cell :=
  let cell := cancelledCell P i call [.reserved, .cancelled]
  relined P call.2.finishFault cell.outcome
    (cell.handed call.2.finishFault :: cancelledCells P (i + 1) calls)

/-- The cells a batch may make of its calls. -/
inductive Cells (P : Interpreter) (maxResultChars : Nat) : Nat → List BatchCall → List Cell → Prop
  | nil {i : Nat} : Cells P maxResultChars i [] []
  | stop {i : Nat} {call : BatchCall} {calls : List BatchCall} (h : exitOf P call = .stopped) :
      Cells P maxResultChars i (call :: calls)
        (cancelledCell P i call [.cancelled] :: cancelledCells P (i + 1) calls)
  | pass {i : Nat} {call : BatchCall} {calls : List BatchCall} {cell : Cell} {cells : List Cell}
      (h : passed P maxResultChars i call = some cell) :
      Cells P maxResultChars (i + 1) calls cells →
        Cells P maxResultChars i (call :: calls) (cell :: cells)
  | inside {i : Nat} {call : BatchCall} {calls : List BatchCall}
      (h : exitOf P call = .stoppedInside) :
      Cells P maxResultChars i (call :: calls) (insideCells P i call calls)
  | receipt {i : Nat} {call : BatchCall} {calls : List BatchCall} {r : RunnerReceipt}
      (h : exitOf P call = .cancelled r) :
      Cells P maxResultChars i (call :: calls)
        ((receiptCell P i call r).map (fun c => { c with events := c.events ++ [.cancelled] }) ++
          cancelledCells P (i + 1) calls)

/-- What cells note, from an index on. -/
def notes : Nat → List Cell → List (Nat × BatchEvent)
  | _, [] => []
  | i, cell :: cells => cell.events.map (fun e => (i, e)) ++ notes (i + 1) cells

/-- The batch has appended these cells. -/
structure Appended (i : Nat) (s s' : BatchState) (cells : List Cell) : Prop where
  outcomes : s'.outcomes = s.outcomes ++ cells.map (·.outcome)
  results : s'.results = s.results ++ cells.map (·.line)
  trace : s'.trace = s.trace ++ notes i cells

theorem notes_cancelledCells (P : Interpreter) (i j : Nat) (calls : List BatchCall) :
    notes i (cancelledCells P j calls) = [] := by
  induction calls generalizing i j with
  | nil => rfl
  | cons call calls ih => exact ih (i + 1) (j + 1)

theorem Appended.cons {i : Nat} {s s₁ s₂ : BatchState} {cell : Cell} {cells : List Cell}
    (h : Appended i s s₁ [cell]) (h' : Appended (i + 1) s₁ s₂ cells) :
    Appended i s s₂ (cell :: cells) := by
  refine ⟨?_, ?_, ?_⟩
  · rw [h'.outcomes, h.outcomes, List.append_assoc]; rfl
  · rw [h'.results, h.results, List.append_assoc]; rfl
  · rw [h'.trace, h.trace, List.append_assoc]; simp [notes]

/-- More is noted at the last cell. -/
theorem Appended.note {s s₁ : BatchState} {cell : Cell} (h : Appended i s s₁ [cell])
    (e : BatchEvent) :
    Appended i s (s₁.note i e) [{ cell with events := cell.events ++ [e] }] := by
  refine ⟨h.outcomes, h.results, ?_⟩
  simp [BatchState.note, h.trace, notes]

theorem appended_recordOutcome (c : PreparedCall) (line : String) (a : OutcomeArgs)
    (s : BatchState) : Appended i s (recordOutcome P i c line a s) [answered P i c line a []] :=
  ⟨rfl, rfl, by simp [recordOutcome, notes, answered]⟩

/-- What was noted before a call was answered is noted at its cell. -/
theorem Appended.before {s s₁ s₂ : BatchState} {cell : Cell} {cells : List Cell}
    (h : Appended i s₁ s₂ (cell :: cells)) (events : List BatchEvent) (houtcomes : s₁.outcomes = s.outcomes)
    (hresults : s₁.results = s.results)
    (htrace : s₁.trace = s.trace ++ events.map fun e => (i, e)) :
    Appended i s s₂ ({ cell with events := events ++ cell.events } :: cells) := by
  refine ⟨houtcomes ▸ h.outcomes, hresults ▸ h.results, ?_⟩
  simp [h.trace, htrace, notes]

theorem appended_cancelRest (s : BatchState) :
    Appended i s (cancelRest P i calls s) (cancelledCells P i calls) := by
  induction calls generalizing i s with
  | nil => exact ⟨by simp [cancelRest, cancelledCells], by simp [cancelRest, cancelledCells],
      by simp [cancelRest, cancelledCells, notes]⟩
  | cons call calls ih =>
      obtain ⟨c, b⟩ := call
      exact (appended_recordOutcome c _ _ s).cons (ih _)

section Relined

variable (fault : Option (String × String)) (outcome : PyDict)

theorem outcomes_relined (cells : List Cell) :
    (relined P fault outcome cells).map (·.outcome) = cells.map (·.outcome) := by
  induction cells with
  | nil => rfl
  | cons cell cells ih =>
      cases cells with
      | nil => cases fault <;> rfl
      | cons cell' cells => simp [relined, ih]

theorem notes_relined (i : Nat) (cells : List Cell) :
    notes i (relined P fault outcome cells) = notes i cells := by
  induction cells generalizing i with
  | nil => rfl
  | cons cell cells ih =>
      cases cells with
      | nil => cases fault <;> rfl
      | cons cell' cells => simp [relined, notes, ih]

theorem relined_none (cells : List Cell) : relined P none outcome cells = cells := by
  induction cells with
  | nil => rfl
  | cons cell cells ih =>
      cases cells with
      | nil => rfl
      | cons cell' cells => simp [relined, ih]

theorem lines_relined (f : String × String) {cells : List Cell} (h : cells ≠ []) :
    (relined P (some f) outcome cells).map (·.line) =
      (cells.map (·.line)).dropLast ++ [unpersistedLine P outcome f] := by
  induction cells with
  | nil => exact absurd rfl h
  | cons cell cells ih =>
      cases cells with
      | nil => rfl
      | cons cell' cells => simpa [relined] using ih (by simp)

end Relined

/-- The outcome of the first of some new cells is handed on, and nothing was noted at the
others. -/
theorem Appended.finish {s s₁ : BatchState} {cell : Cell} {rest : List Cell}
    (h : Appended i s s₁ (cell :: rest)) (hrest : notes (i + 1) rest = [])
    (fault : Option (String × String)) :
    Appended i s (finishOuterCall P i s.outcomes.length fault s₁)
      (relined P fault cell.outcome (cell.handed fault :: rest)) := by
  have hfind : s₁.outcomes[s.outcomes.length]? = some cell.outcome := by
    simp [h.outcomes]
  unfold finishOuterCall
  rw [hfind]
  cases fault with
  | none =>
      rw [relined_none]
      exact ⟨h.outcomes, h.results, by simp [BatchState.note, h.trace, notes, hrest, Cell.handed]⟩
  | some f =>
      refine ⟨?_, ?_, ?_⟩
      · rw [outcomes_relined]
        simp [BatchState.note, h.outcomes, Cell.handed]
      · have hlines : (cell :: rest).map (·.line) ≠ [] := by simp
        rw [lines_relined _ _ (by simp)]
        dsimp only [BatchState.note]
        rw [h.results, List.getLast?_eq_some_getLast (List.append_ne_nil_of_right_ne_nil _ hlines),
          List.dropLast_append_of_ne_nil hlines, List.append_assoc]
        rfl
      · rw [notes_relined]
        simp [BatchState.note, h.trace, notes, hrest, Cell.handed]

/-! ## 2.  A batch makes cells -/

theorem appended_cancelFrom (call : BatchCall) (calls : List BatchCall) (s : BatchState) :
    Appended i s (cancelFrom P i i (call :: calls) s)
      (cancelledCell P i call [.cancelled] :: cancelledCells P (i + 1) calls) := by
  have h := (appended_recordOutcome (P := P) (i := i) call.1
    (s!"[{call.1.name P}] " ++ "cancelled before execution")
    { result := "cancelled before execution", ok := false, executed := false
      errorClass := .cancelled } { s.note i .cancelled with cancelled := true }).before
    (s := s) [.cancelled] rfl rfl rfl
  exact h.cons (appended_cancelRest _)

theorem appended_cancelTail {cell : Cell} {s s₁ : BatchState} (h : Appended i s s₁ [cell]) :
    Appended i s (cancelFrom P i (i + 1) calls s₁)
      ({ cell with events := cell.events ++ [.cancelled] } :: cancelledCells P (i + 1) calls) := by
  obtain ⟨houtcomes, hresults, htrace⟩ := h.note .cancelled
  have hflag : Appended i s { s₁.note i .cancelled with cancelled := true }
      [{ cell with events := cell.events ++ [.cancelled] }] := ⟨houtcomes, hresults, htrace⟩
  exact hflag.cons (appended_cancelRest _)

/-- The outcome that was recorded last is handed on. -/
theorem Appended.finishLast {s s₁ : BatchState} {cell : Cell} (h : Appended i s s₁ [cell])
    (fault : Option (String × String)) :
    Appended i s (finishOuterCall P i (s₁.outcomes.length - 1) fault s₁)
      (relined P fault cell.outcome [cell.handed fault]) := by
  have hlength : s₁.outcomes.length - 1 = s.outcomes.length := by simp [h.outcomes]
  rw [hlength]
  exact h.finish rfl fault

/-- A call that was reserved and started is answered. -/
theorem appended_started (c : PreparedCall) (line : String) (a : OutcomeArgs) {s s₁ : BatchState}
    (houtcomes : s₁.outcomes = s.outcomes ++ [outcomeOf P i c a])
    (hresults : s₁.results = s.results ++ [line])
    (htrace : s₁.trace = s.trace ++ [(i, .reserved), (i, .started)]) :
    Appended i s s₁ [answered P i c line a [.reserved, .started]] :=
  ⟨houtcomes, hresults, by simp [htrace, notes, answered]⟩

theorem appended_runCall {call : BatchCall} {s : BatchState} {cell : Cell}
    (hexit : exitOf P call = .ran) (hcell : passed P maxResultChars i call = some cell) :
    Appended i s (runCall P maxResultChars i call.1 call.2 (s.note i .reserved)) [cell] := by
  have hcells : relined P call.2.finishFault
      (outcomeOf P i call.1 (ranOutcome P maxResultChars call.2.invoked))
      [(answered P i call.1 (ranLine P call.1 (ranOutcome P maxResultChars call.2.invoked))
        (ranOutcome P maxResultChars call.2.invoked) [.reserved, .started]).handed
          call.2.finishFault] = [cell] := by
    rw [passed, hexit] at hcell
    cases hfault : call.2.finishFault <;> simp_all [relined, answered]
  rw [← hcells]
  exact (appended_started call.1 _ _ rfl rfl (by simp [recordOutcome, BatchState.note])).finishLast
    call.2.finishFault

theorem appended_runCancelled (call : BatchCall) (r : RunnerReceipt) (s : BatchState) :
    Appended i s (runCancelled P i call.1 r call.2 (s.note i .reserved))
      (receiptCell P i call r) := by
  have hrecorded (line : String) (a : OutcomeArgs) : Appended i s
      (recordOutcome P i call.1 line a ((s.note i .reserved).note i .started))
      [answered P i call.1 line a [.reserved, .started]] :=
    appended_started call.1 line a rfl rfl (by simp [recordOutcome, BatchState.note])
  obtain ⟨houtcomes, hresults, htrace⟩ := (hrecorded _ _).finishLast call.2.finishFault
  exact ⟨houtcomes, hresults, htrace⟩

theorem appended_replayOutcome (outcome : PyDict) (s : BatchState) :
    Appended i s (replayOutcome P i outcome s)
      [⟨replayLine P (Dict.set outcome "durable_replay" (.bool true)),
        Dict.set outcome "durable_replay" (.bool true),
        if isCancelled P (Dict.set outcome "durable_replay" (.bool true)) then [.cancelled]
        else []⟩] := by
  unfold replayOutcome
  dsimp only
  split
  · exact ⟨rfl, rfl, by simp [BatchState.note, notes]⟩
  · exact ⟨rfl, rfl, by simp [notes]⟩

/-- **A batch that returns has made cells of its calls.** -/
theorem runBatch_cells {s s' : BatchState} (h : runBatch P maxResultChars i calls s = .ok s') :
    ∃ cells, Cells P maxResultChars i calls cells ∧ Appended i s s' cells := by
  induction calls generalizing i s with
  | nil =>
      obtain rfl := Except.ok.inj h
      exact ⟨[], .nil, ⟨by simp, by simp, by simp [notes]⟩⟩
  | cons call calls ih =>
      obtain ⟨c, b⟩ := call
      -- The batch goes on after the call.
      have hgoes {cell : Cell} {s₁ : BatchState} (hcell : passed P maxResultChars i (c, b) = some cell)
          (hs₁ : Appended i s s₁ [cell]) (hrest : runBatch P maxResultChars (i + 1) calls s₁ = .ok s') :
          ∃ cells, Cells P maxResultChars i ((c, b) :: calls) cells ∧ Appended i s s' cells := by
        obtain ⟨cells, hcells, happ⟩ := ih hrest
        exact ⟨cell :: cells, .pass hcell hcells, hs₁.cons happ⟩
      unfold runBatch at h
      split at h
      · rename_i hstop
        obtain rfl := Except.ok.inj h
        exact ⟨_, .stop (by simp [exitOf, hstop]), appended_cancelFrom _ _ s⟩
      rename_i hstop
      split at h
      · rename_i hinvalid
        have hexit : exitOf P (c, b) = .invalid := by simp [exitOf, hstop, hinvalid]
        refine hgoes (by rw [passed, hexit]) ?_ h
        exact ⟨rfl, rfl, by simp [recordOutcome, notes, answered]⟩
      rename_i hvalid
      split at h
      · rename_i hbound
        have hexit : exitOf P (c, b) = .unavailable := by simp [exitOf, hstop, hvalid, hbound]
        refine hgoes (by rw [passed, hexit]) ?_ h
        exact ⟨rfl, rfl, by simp [recordOutcome, notes, answered]⟩
      rename_i hbound
      split at h
      · exact absurd h (by simp)
      rename_i hcontext
      split at h
      · rename_i type text hreserved
        have hexit : exitOf P (c, b) = .refused type text := by
          simp [exitOf, hstop, hvalid, hbound, hcontext, hreserved]
        refine hgoes (by rw [passed, hexit]) ?_ h
        exact ⟨rfl, rfl, by simp [recordOutcome, notes, answered]⟩
      · rename_i outcome hreserved
        have hexit : exitOf P (c, b) = .replayed outcome := by
          simp [exitOf, hstop, hvalid, hbound, hcontext, hreserved]
        exact hgoes (by rw [passed, hexit]) (appended_replayOutcome outcome s) h
      · rename_i hreserved
        dsimp only at h
        split at h
        · rename_i hinside
          obtain rfl := Except.ok.inj h
          have hexit : exitOf P (c, b) = .stoppedInside := by
            simp [exitOf, hstop, hvalid, hbound, hcontext, hreserved, hinside]
          refine ⟨_, .inside hexit, ?_⟩
          have hcells := (appended_cancelFrom (P := P) (i := i) (c, b) calls
            (s.note i .reserved)).before (s := s) [.reserved] rfl rfl rfl
          exact hcells.finish (notes_cancelledCells P (i + 1) (i + 1) calls) b.finishFault
        rename_i hinside
        split at h
        · rename_i r hreceipt
          obtain rfl := Except.ok.inj h
          have hexit : exitOf P (c, b) = .cancelled r := by
            simp [exitOf, hstop, hvalid, hbound, hcontext, hreserved, hinside, hreceipt]
          refine ⟨_, .receipt hexit, ?_⟩
          obtain ⟨cell, hcell⟩ : ∃ cell, receiptCell P i (c, b) r = [cell] := by
            cases hfault : b.finishFault <;> simp [receiptCell, relined, hfault]
          have happ := appended_runCancelled (P := P) (i := i) (c, b) r s
          rw [hcell] at happ ⊢
          exact appended_cancelTail happ
        · rename_i hreceipt
          have hexit : exitOf P (c, b) = .ran := by
            simp [exitOf, hstop, hvalid, hbound, hcontext, hreserved, hinside, hreceipt]
          obtain ⟨cell, hcell⟩ : ∃ cell, passed P maxResultChars i (c, b) = some cell := by
            rw [passed, hexit]
            cases hfault : b.finishFault <;> simp [relined]
          exact hgoes hcell (appended_runCall hexit hcell) h

/-! ## 3.  The contract -/

def BatchEvent.isStarted : BatchEvent → Bool
  | .started => true
  | _ => false

def BatchEvent.isReserved : BatchEvent → Bool
  | .reserved => true
  | _ => false

def BatchEvent.isCancelled : BatchEvent → Bool
  | .cancelled => true
  | _ => false

def BatchEvent.isUnpersisted : BatchEvent → Bool
  | .unpersisted => true
  | _ => false

/-- The outcome that was handed to `finish_provider_outer_call`. -/
def BatchEvent.outcome? : BatchEvent → Option PyDict
  | .finished outcome => some outcome
  | _ => none

/-- What was noted at a call. -/
def eventsAt (trace : List (Nat × BatchEvent)) (i : Nat) : List BatchEvent :=
  (trace.filter fun e => e.1 == i).map (·.2)

/-- The result of a batch, call by call. -/
def BatchState.cells (s : BatchState) : List Cell :=
  (s.outcomes.zip s.results).zipIdx.map fun p => ⟨p.1.2, p.1.1, eventsAt s.trace p.2⟩

/-- The lines that describe an outcome. -/
def descriptions (P : Interpreter) (o : PyDict) : List String :=
  [P.text ((Dict.get? o "tool").getD .none),
      P.text (orElse (Dict.get? o "tool") (.str "tool"))].flatMap fun name =>
    [s!"[{name}] " ++ P.text (orElse (Dict.get? o "model_result")
        (orElse (Dict.get? o "result") (.str ""))),
      s!"[{name}] error: " ++ P.field o "result",
      s!"[{name}] error: " ++ errorSummary P (P.field o "result") 300,
      s!"[{name}] invalid arguments: " ++ P.field o "result"]

/-- The call was not started, and its outcome says that it was cancelled. -/
structure Cell.Halted (cell : Cell) : Prop where
  idle : cell.events.any BatchEvent.isStarted = false
  status : Dict.get? cell.outcome "status" = some (.str "cancelled")
  executed : Dict.get? cell.outcome "executed" = some (.bool false)

/-- What went to `finish_provider_outer_call` is the outcome of the call, once, if the
reservation said `execute`; it may then have been replaced because it was not persisted. -/
def Cell.Finished (cell : Cell) : Prop :=
  if cell.events.any BatchEvent.isReserved then
    ∃ o, cell.events.filterMap BatchEvent.outcome? = [o] ∧
      Dict.get? o "call_id" = Dict.get? cell.outcome "call_id" ∧
      (cell.outcome = o ∨ ∃ fault, cell.outcome = Dict.merge o (unpersistedFields fault))
  else cell.events.filterMap BatchEvent.outcome? = []

/-- The calls of a batch are answered completely and in order. -/
structure Answered (P : Interpreter) (calls : List BatchCall) (s : BatchState) : Prop where
  /-- One outcome for each call, in order, with its id. -/
  ids : s.outcomes.map (Dict.get? · "call_id") =
    calls.zipIdx.map fun p => some (.str (p.1.1.callId P p.2))
  /-- One line for each call, in order, that describes it. -/
  lines : s.results.length = calls.length
  described : ∀ cell ∈ s.cells, cell.line ∈ descriptions P cell.outcome
  /-- Calls are started at most once, in order. -/
  starts : ((s.trace.filter (·.2.isStarted)).map (·.1)).Pairwise (· < ·)
  /-- After a cancellation nothing is started, and every outcome says so. -/
  halted : s.cells.Pairwise fun c d => c.events.any BatchEvent.isCancelled = true → d.Halted
  finished : ∀ cell ∈ s.cells, cell.Finished
  /-- The batch asks to terminate only if every outcome does and was persisted. -/
  terminate : s.terminate = true → ∀ cell ∈ s.cells,
    flagOf cell.outcome "terminate" = true ∧ cell.events.any BatchEvent.isUnpersisted = false

/-- After a replayed cancellation nothing else is started. -/
def Halts (P : Interpreter) : List BatchCall → Prop
  | [] => True
  | call :: calls =>
      match exitOf P call with
      | .stopped => True
      | .stoppedInside => call.2.finishFault = none
      | .replayed o => Dict.get? o "status" = some (.str "cancelled") ∧
          Dict.get? o "executed" = some (.bool false) ∧ Halts P calls
      | _ => False

/-- The condition: a replayed outcome has the id of its call, a replayed cancellation is
the end of the batch, and the outcome of a call that is cancelled before it starts is
persisted, unless it is the last. -/
def Fits (P : Interpreter) : Nat → List BatchCall → Prop
  | _, [] => True
  | i, call :: calls =>
      match exitOf P call with
      | .stopped | .cancelled _ => True
      | .stoppedInside => call.2.finishFault = none ∨ calls = []
      | .replayed o => Dict.get? o "call_id" = some (.str (call.1.callId P i)) ∧
          (isCancelled P o = true → Halts P calls) ∧ Fits P (i + 1) calls
      | _ => Fits P (i + 1) calls

/-! ## 4.  What every cell is -/

section Outcome

variable (c : PreparedCall) (a : OutcomeArgs)

theorem get?_status :
    Dict.get? (outcomeOf P i c a) "status" = some (.str (a.errorClass.status a.ok)) := rfl

theorem get?_tool : Dict.get? (outcomeOf P i c a) "tool" = some (.str (c.name P)) := rfl

theorem get?_result : Dict.get? (outcomeOf P i c a) "result" = some (.str a.result) := rfl

theorem get?_model_result : Dict.get? (outcomeOf P i c a) "model_result" =
    some (.str (a.projectedResult.getD a.result)) := rfl

end Outcome

section Unpersisted

variable (o : PyDict) (f : String × String)

theorem unpersisted_call_id :
    Dict.get? (Dict.merge o (unpersistedFields f)) "call_id" = Dict.get? o "call_id" :=
  Dict.get?_merge_of_none rfl

theorem unpersisted_tool :
    Dict.get? (Dict.merge o (unpersistedFields f)) "tool" = Dict.get? o "tool" :=
  Dict.get?_merge_of_none rfl

theorem unpersisted_status : Dict.get? (Dict.merge o (unpersistedFields f)) "status" =
    some (.str "needs_reconciliation") := by
  simp [unpersistedFields, Dict.merge, Dict.get?_set_self, Dict.get?_set_of_ne]

theorem unpersisted_terminate :
    Dict.get? (Dict.merge o (unpersistedFields f)) "terminate" = some (.bool false) := by
  simp [unpersistedFields, Dict.merge, Dict.get?_set_self, Dict.get?_set_of_ne]

theorem unpersisted_model_result : Dict.get? (Dict.merge o (unpersistedFields f)) "model_result" =
    some (.str (unpersistedMessage f.1)) := by
  simp [unpersistedFields, Dict.merge, Dict.get?_set_self, Dict.get?_set_of_ne]

end Unpersisted

@[simp] theorem text_str (s : String) : P.text (.str s) = s := rfl

theorem orElse_str_empty (s : String) : orElse (some (.str s)) (.str "") = .str s := by
  by_cases hs : s = ""
  · simp [orElse, PyValue.truthy, hs]
  · simp [orElse, PyValue.truthy, hs]

/-- The lines of an outcome whose name, result and visible result are texts. -/
theorem mem_descriptions {o : PyDict} {name result line : String}
    (htool : Dict.get? o "tool" = some (.str name))
    (hresult : Dict.get? o "result" = some (.str result))
    (hvisible : Dict.get? o "model_result" = some (.str result))
    (hline : line ∈ [s!"[{name}] " ++ result, s!"[{name}] error: " ++ result,
      s!"[{name}] error: " ++ errorSummary P result 300,
      s!"[{name}] invalid arguments: " ++ result]) : line ∈ descriptions P o := by
  have hfield : P.field o "result" = result := by
    rw [Interpreter.field, hresult, orElse_str_empty, text_str]
  have htext : P.text (orElse (Dict.get? o "model_result")
      (orElse (Dict.get? o "result") (.str ""))) = result := by
    rw [hvisible, hresult, orElse_str_empty]
    by_cases hs : result = ""
    · simp [orElse, PyValue.truthy, hs]
    · simp [orElse, PyValue.truthy, hs]
  rw [descriptions, hfield, htext, htool]
  exact List.mem_append_left _ hline

/-- An answered call is described by its line. -/
theorem described_answered {c : PreparedCall} {a : OutcomeArgs} {line : String}
    {events : List BatchEvent} (hvisible : a.projectedResult = none)
    (hline : line ∈ [s!"[{c.name P}] " ++ a.result, s!"[{c.name P}] error: " ++ a.result,
      s!"[{c.name P}] error: " ++ errorSummary P a.result 300,
      s!"[{c.name P}] invalid arguments: " ++ a.result]) :
    (answered P i c line a events).line ∈
      descriptions P (answered P i c line a events).outcome := by
  have htool := get?_tool (P := P) (i := i) c a
  have hresult := get?_result (P := P) (i := i) c a
  have hmodel := get?_model_result (P := P) (i := i) c a
  rw [hvisible, Option.getD_none] at hmodel
  exact mem_descriptions (P := P) htool hresult hmodel hline

/-- So is a call whose outcome was not persisted. -/
theorem described_unpersisted (o : PyDict) (f : String × String) :
    unpersistedLine P o f ∈ descriptions P (Dict.merge o (unpersistedFields f)) := by
  have hne : ¬ unpersistedMessage f.1 = "" :=
    fun h => absurd (String.append_eq_empty_iff.mp h).2 (by decide)
  have htext : P.text (orElse (Dict.get? (Dict.merge o (unpersistedFields f)) "model_result")
      (orElse (Dict.get? (Dict.merge o (unpersistedFields f)) "result") (.str ""))) =
      unpersistedMessage f.1 := by
    rw [unpersisted_model_result]
    simp [orElse, PyValue.truthy, hne]
  rw [descriptions, htext, unpersisted_tool]
  simp [unpersistedLine]

theorem halted_cancelledCell (call : BatchCall) {events : List BatchEvent}
    (h : events.any BatchEvent.isStarted = false) : (cancelledCell P i call events).Halted :=
  ⟨h, rfl, rfl⟩

theorem described_cancelledCell (call : BatchCall) (events : List BatchEvent) :
    (cancelledCell P i call events).line ∈ descriptions P (cancelledCell P i call events).outcome :=
  described_answered rfl (by simp)

theorem mem_cancelledCells {cell : Cell} (h : cell ∈ cancelledCells P i calls) :
    ∃ j call, cell = cancelledCell P j call [] := by
  induction calls generalizing i with
  | nil => exact absurd h List.not_mem_nil
  | cons call calls ih =>
      rcases List.mem_cons.mp h with rfl | h
      · exact ⟨i, call, rfl⟩
      · exact ih h

/-- Only the line of a cell changes. -/
theorem mem_relined {fault : Option (String × String)} {o : PyDict} {cell : Cell}
    {cells : List Cell} (h : cell ∈ relined P fault o cells) :
    ∃ cell' ∈ cells, cell.outcome = cell'.outcome ∧ cell.events = cell'.events := by
  induction cells with
  | nil => exact absurd h List.not_mem_nil
  | cons c cells ih =>
      cases cells with
      | nil =>
          cases fault with
          | none => exact ⟨cell, h, rfl, rfl⟩
          | some f =>
              obtain rfl := List.mem_singleton.mp h
              exact ⟨c, List.mem_cons_self, rfl, rfl⟩
      | cons c' cells =>
          rcases List.mem_cons.mp h with rfl | h
          · exact ⟨cell, List.mem_cons_self, rfl, rfl⟩
          · obtain ⟨cell', hmem, hfacts⟩ := ih h
            exact ⟨cell', List.mem_cons_of_mem _ hmem, hfacts⟩

/-! ## 5.  What always holds -/

/-- What holds of every cell. -/
structure Cell.Ok (cell : Cell) : Prop where
  once : (cell.events.filter BatchEvent.isStarted).length ≤ 1
  finished : cell.Finished
  persisted : cell.events.any BatchEvent.isUnpersisted = true →
    flagOf cell.outcome "terminate" = false

theorem Cell.Ok.of_eq {cell cell' : Cell} (h : cell'.Ok) (houtcome : cell.outcome = cell'.outcome)
    (hevents : cell.events = cell'.events) : cell.Ok := by
  obtain ⟨line, outcome, events⟩ := cell
  obtain rfl : outcome = cell'.outcome := houtcome
  obtain rfl : events = cell'.events := hevents
  exact ⟨h.once, h.finished, h.persisted⟩

/-- Nothing but a cancellation is noted. -/
theorem Cell.ok_quiet {cell : Cell} (h : cell.events = [] ∨ cell.events = [.cancelled]) :
    cell.Ok := by
  rcases h with h | h <;> refine ⟨?_, ?_, ?_⟩ <;>
    simp [h, Cell.Finished, BatchEvent.isStarted, BatchEvent.isReserved, BatchEvent.isUnpersisted,
      BatchEvent.outcome?]

/-- A cell whose outcome was handed on, after a reservation and one start or a
cancellation. -/
theorem Cell.ok_handed {cell : Cell} {e : BatchEvent} (he : e = .started ∨ e = .cancelled)
    (h : cell.events = [.reserved, e]) (fault : Option (String × String)) :
    (cell.handed fault).Ok := by
  cases fault with
  | none =>
      have hfinished : (cell.handed none).Finished := by
        rw [Cell.Finished, if_pos (by simp [Cell.handed, h, BatchEvent.isReserved])]
        refine ⟨cell.outcome, ?_, rfl, .inl rfl⟩
        rcases he with rfl | rfl <;>
          simp [Cell.handed, h, List.filterMap_cons, BatchEvent.outcome?]
      rcases he with rfl | rfl <;> refine ⟨?_, hfinished, ?_⟩ <;>
        simp [Cell.handed, h, List.filter_cons, BatchEvent.isStarted, BatchEvent.isUnpersisted]
  | some f =>
      have hterminate : flagOf (Dict.merge cell.outcome (unpersistedFields f)) "terminate" = false := by
        rw [flagOf, unpersisted_terminate]
        rfl
      have hfinished : (cell.handed (some f)).Finished := by
        rw [Cell.Finished, if_pos (by simp [Cell.handed, h, BatchEvent.isReserved])]
        refine ⟨cell.outcome, ?_, (unpersisted_call_id cell.outcome f).symm, .inr ⟨f, rfl⟩⟩
        rcases he with rfl | rfl <;>
          simp [Cell.handed, h, List.filterMap_cons, BatchEvent.outcome?]
      refine ⟨?_, hfinished, fun _ => hterminate⟩
      rcases he with rfl | rfl <;>
        simp [Cell.handed, h, List.filter_cons, BatchEvent.isStarted]

/-- A cancellation that is noted last. -/
theorem Cell.Ok.cancelled {cell : Cell} (h : cell.Ok) :
    ({ cell with events := cell.events ++ [.cancelled] } : Cell).Ok := by
  obtain ⟨honce, hfinished, hpersisted⟩ := h
  have hany (f : BatchEvent → Bool) (hf : f BatchEvent.cancelled = false) :
      (cell.events ++ [BatchEvent.cancelled]).any f = cell.events.any f := by
    simp [hf]
  have hmap : (cell.events ++ [BatchEvent.cancelled]).filterMap BatchEvent.outcome? =
      cell.events.filterMap BatchEvent.outcome? := by
    simp [List.filterMap_append, BatchEvent.outcome?]
  refine ⟨?_, ?_, fun h => hpersisted (hany BatchEvent.isUnpersisted rfl ▸ h)⟩
  · simpa [List.filter_append, List.filter_cons, BatchEvent.isStarted] using honce
  · unfold Cell.Finished at hfinished ⊢
    dsimp only
    rwa [hany BatchEvent.isReserved rfl, hmap]

theorem ok_cancelledCells {cell : Cell} (h : cell ∈ cancelledCells P i calls) : cell.Ok := by
  obtain ⟨j, call, rfl⟩ := mem_cancelledCells h
  exact Cell.ok_quiet (.inl rfl)

theorem ok_passed {call : BatchCall} {cell : Cell}
    (h : passed P maxResultChars i call = some cell) : cell.Ok := by
  unfold passed at h
  split at h
  · obtain rfl := Option.some.inj h
    exact Cell.ok_quiet (.inl rfl)
  · obtain rfl := Option.some.inj h
    exact Cell.ok_quiet (.inl rfl)
  · obtain rfl := Option.some.inj h
    exact Cell.ok_quiet (.inl rfl)
  · obtain rfl := Option.some.inj h
    refine Cell.ok_quiet ?_
    dsimp only
    split
    · exact .inr rfl
    · exact .inl rfl
  · obtain ⟨cell', hmem, houtcome, hevents⟩ := mem_relined (List.mem_of_head? h)
    obtain rfl := List.mem_singleton.mp hmem
    exact (Cell.ok_handed (.inl rfl) rfl _).of_eq houtcome hevents
  · exact absurd h (by simp)

/-- **Every cell of a batch is fine.** -/
theorem ok_of_cells {cells : List Cell} (h : Cells P maxResultChars i calls cells) :
    ∀ cell ∈ cells, cell.Ok := by
  induction h with
  | nil => exact fun _ hmem => absurd hmem List.not_mem_nil
  | stop hexit =>
      intro cell hmem
      rcases List.mem_cons.mp hmem with rfl | hmem
      · exact Cell.ok_quiet (.inr rfl)
      · exact ok_cancelledCells hmem
  | pass hcell _ ih =>
      intro cell hmem
      rcases List.mem_cons.mp hmem with rfl | hmem
      · exact ok_passed hcell
      · exact ih cell hmem
  | inside hexit =>
      intro cell hmem
      obtain ⟨cell', hmem, houtcome, hevents⟩ := mem_relined hmem
      refine Cell.Ok.of_eq ?_ houtcome hevents
      rcases List.mem_cons.mp hmem with rfl | hmem
      · exact Cell.ok_handed (.inr rfl) rfl _
      · exact ok_cancelledCells hmem
  | receipt hexit =>
      intro cell hmem
      rcases List.mem_append.mp hmem with hmem | hmem
      · obtain ⟨cell', hcell', rfl⟩ := List.mem_map.mp hmem
        obtain ⟨cell'', hmem, houtcome, hevents⟩ := mem_relined hcell'
        obtain rfl := List.mem_singleton.mp hmem
        exact ((Cell.ok_handed (.inl rfl) rfl _).of_eq houtcome hevents).cancelled
      · exact ok_cancelledCells hmem

/-- Starts are noted in order. -/
theorem starts_notes {cells : List Cell} (h : ∀ cell ∈ cells, cell.Ok) (i : Nat) :
    (((notes i cells).filter (·.2.isStarted)).map (·.1)).Pairwise (· < ·) ∧
      ∀ j ∈ ((notes i cells).filter (·.2.isStarted)).map (·.1), i ≤ j := by
  induction cells generalizing i with
  | nil => simp [notes]
  | cons cell cells ih =>
      obtain ⟨hpairwise, hle⟩ := ih (fun c hc => h c (List.mem_cons_of_mem _ hc)) (i + 1)
      have honce := (h cell List.mem_cons_self).once
      have hcell : ((cell.events.map fun e => (i, e)).filter (·.2.isStarted)).map (·.1) =
          List.replicate (cell.events.filter BatchEvent.isStarted).length i := by
        rw [List.filter_map, List.map_map]
        exact List.map_const' ..
      rw [notes, List.filter_append, List.map_append, hcell]
      refine ⟨List.pairwise_append.mpr ⟨?_, hpairwise, fun a ha b hb => ?_⟩, fun j hj => ?_⟩
      · exact List.pairwise_replicate.mpr (.inl honce)
      · have := hle b hb
        have := List.eq_of_mem_replicate ha
        omega
      · rcases List.mem_append.mp hj with hj | hj
        · exact (List.eq_of_mem_replicate hj).ge
        · exact Nat.le_of_succ_le (hle j hj)

/-! ## 6.  What holds under the condition -/

/-- The clauses of the contract that do not hold of every batch. -/
structure Sound (P : Interpreter) (i : Nat) (calls : List BatchCall) (cells : List Cell) : Prop where
  ids : cells.map (fun cell => Dict.get? cell.outcome "call_id") =
    (calls.zipIdx i).map fun p => some (.str (p.1.1.callId P p.2))
  halted : cells.Pairwise fun c d => c.events.any BatchEvent.isCancelled = true → d.Halted
  described : ∀ cell ∈ cells, cell.line ∈ descriptions P cell.outcome

theorem sound_cancelledCells : Sound P i calls (cancelledCells P i calls) := by
  induction calls generalizing i with
  | nil => exact ⟨rfl, .nil, fun _ h => absurd h List.not_mem_nil⟩
  | cons call calls ih =>
      obtain ⟨hids, hhalted, hdescribed⟩ := ih (i := i + 1)
      refine ⟨?_, .cons (fun _ _ h => absurd h (by simp [cancelledCell, answered])) hhalted, ?_⟩
      · rw [cancelledCells, List.map_cons, hids]
        rfl
      · exact List.forall_mem_cons.mpr ⟨described_cancelledCell call [], hdescribed⟩

theorem halted_cancelledCells {cell : Cell} (h : cell ∈ cancelledCells P i calls) :
    cell.Halted := by
  obtain ⟨j, call, rfl⟩ := mem_cancelledCells h
  exact halted_cancelledCell call rfl

/-- One more cell. -/
theorem sound_cons {call : BatchCall} {cell : Cell} {cells : List Cell} :
    Sound P i (call :: calls) (cell :: cells) ↔
      Dict.get? cell.outcome "call_id" = some (.str (call.1.callId P i)) ∧
      (cell.events.any BatchEvent.isCancelled = true → ∀ d ∈ cells, d.Halted) ∧
      cell.line ∈ descriptions P cell.outcome ∧ Sound P (i + 1) calls cells := by
  constructor
  · rintro ⟨hids, hhalted, hdescribed⟩
    rw [List.zipIdx_cons, List.map_cons, List.map_cons] at hids
    obtain ⟨hid, hids⟩ := List.cons.inj hids
    obtain ⟨hcell, hhalted⟩ := List.pairwise_cons.mp hhalted
    obtain ⟨hline, hdescribed⟩ := List.forall_mem_cons.mp hdescribed
    exact ⟨hid, fun hc d hd => hcell d hd hc, hline, hids, hhalted, hdescribed⟩
  · rintro ⟨hid, hcell, hline, hids, hhalted, hdescribed⟩
    refine ⟨?_, .cons (fun d hd hc => hcell hc d hd) hhalted,
      List.forall_mem_cons.mpr ⟨hline, hdescribed⟩⟩
    rw [List.zipIdx_cons, List.map_cons, List.map_cons, hid, hids]

/-- The cell of a call that goes through the broker, whether or not its outcome was
persisted. -/
theorem described_handed {c : PreparedCall} {a : OutcomeArgs} {line : String}
    {events : List BatchEvent} {fault : Option (String × String)} {cell : Cell}
    (hline : (answered P i c line a events).line ∈
      descriptions P (answered P i c line a events).outcome)
    (h : relined P fault (answered P i c line a events).outcome
      [(answered P i c line a events).handed fault] = [cell]) :
    Dict.get? cell.outcome "call_id" = some (.str (c.callId P i)) ∧
      cell.line ∈ descriptions P cell.outcome ∧ ∀ e ∈ events, e ∈ cell.events := by
  cases fault with
  | none =>
      obtain rfl := List.singleton_inj.mp h
      exact ⟨rfl, hline, fun e he => List.mem_append_left _ he⟩
  | some f =>
      obtain rfl := List.singleton_inj.mp h
      exact ⟨unpersisted_call_id _ f, described_unpersisted _ f,
        fun e he => List.mem_append_left _ he⟩

/-- A call after which the batch goes on, and which was not a replay. -/
structure Plain (P : Interpreter) (i : Nat) (call : BatchCall) (cell : Cell) : Prop where
  fits : ∀ calls, Fits P i (call :: calls) ↔ Fits P (i + 1) calls
  runs : ∀ calls, ¬ Halts P (call :: calls)
  id : Dict.get? cell.outcome "call_id" = some (.str (call.1.callId P i))
  quiet : cell.events.any BatchEvent.isCancelled = false
  described : cell.line ∈ descriptions P cell.outcome
  attempted : ¬ cell.Halted

/-- A call that was refused without a cancellation. -/
theorem plain_answered {call : BatchCall} {line : String} {a : OutcomeArgs}
    (hfits : ∀ calls, Fits P i (call :: calls) ↔ Fits P (i + 1) calls)
    (hruns : ∀ calls, ¬ Halts P (call :: calls)) (hvisible : a.projectedResult = none)
    (hstatus : a.errorClass.status a.ok ≠ "cancelled")
    (hline : line ∈ [s!"[{call.1.name P}] " ++ a.result, s!"[{call.1.name P}] error: " ++ a.result,
      s!"[{call.1.name P}] error: " ++ errorSummary P a.result 300,
      s!"[{call.1.name P}] invalid arguments: " ++ a.result]) :
    Plain P i call (answered P i call.1 line a []) := by
  refine ⟨hfits, hruns, rfl, rfl, described_answered hvisible hline, fun h => ?_⟩
  exact hstatus (PyValue.str.inj (Option.some.inj ((get?_status call.1 a).symm.trans h.status)))

theorem ranLine_mem (c : PreparedCall) (a : OutcomeArgs) :
    ranLine P c a ∈ [s!"[{c.name P}] " ++ a.result, s!"[{c.name P}] error: " ++ a.result,
      s!"[{c.name P}] error: " ++ errorSummary P a.result 300,
      s!"[{c.name P}] invalid arguments: " ++ a.result] := by
  unfold ranLine
  split
  · exact List.mem_cons_self
  · exact List.mem_cons_of_mem _ (List.mem_cons_of_mem _ List.mem_cons_self)

theorem projectedResult_ranOutcome (b : Invoked) :
    (ranOutcome P maxResultChars b).projectedResult = none := by
  unfold ranOutcome
  split
  · rfl
  · split <;> rfl

/-- A call of which the batch goes on is a replay or a plain one. -/
theorem passed_cases {call : BatchCall} {cell : Cell}
    (h : passed P maxResultChars i call = some cell) :
    (∃ o, exitOf P call = .replayed o ∧ cell.outcome = Dict.set o "durable_replay" (.bool true) ∧
      cell.line = replayLine P cell.outcome ∧
      cell.events = if isCancelled P cell.outcome then [.cancelled] else []) ∨
    Plain P i call cell := by
  unfold passed at h
  split at h
  · rename_i hexit
    obtain rfl := Option.some.inj h
    exact .inr <| plain_answered (fun _ => by rw [Fits, hexit])
      (fun _ => by rw [Halts, hexit]; exact id)
      rfl (by simp [ErrorClass.status, ErrorClass.text]) (by simp)
  · rename_i hexit
    obtain rfl := Option.some.inj h
    exact .inr <| plain_answered (fun _ => by rw [Fits, hexit])
      (fun _ => by rw [Halts, hexit]; exact id)
      rfl (by simp [ErrorClass.status, ErrorClass.text]) (by simp)
  · rename_i hexit
    obtain rfl := Option.some.inj h
    exact .inr <| plain_answered (fun _ => by rw [Fits, hexit])
      (fun _ => by rw [Halts, hexit]; exact id)
      rfl (by simp [ErrorClass.status, ErrorClass.text]) (by simp)
  · rename_i o hexit
    obtain rfl := Option.some.inj h
    exact .inl ⟨o, hexit, rfl, rfl, rfl⟩
  · rename_i hexit
    have hcell : relined P call.2.finishFault
        (answered P i call.1 (ranLine P call.1 (ranOutcome P maxResultChars call.2.invoked))
          (ranOutcome P maxResultChars call.2.invoked) [.reserved, .started]).outcome
        [(answered P i call.1 (ranLine P call.1 (ranOutcome P maxResultChars call.2.invoked))
          (ranOutcome P maxResultChars call.2.invoked) [.reserved, .started]).handed
            call.2.finishFault] = [cell] := by
      cases hfault : call.2.finishFault <;> simp_all [relined]
    obtain ⟨hid, hdescribed, hevents⟩ := described_handed
      (described_answered (projectedResult_ranOutcome _) (ranLine_mem _ _)) hcell
    have hquiet : cell.events.any BatchEvent.isCancelled = false := by
      cases hfault : call.2.finishFault with
      | none =>
          rw [hfault] at hcell
          obtain rfl := List.singleton_inj.mp hcell
          rfl
      | some f =>
          rw [hfault] at hcell
          obtain rfl := List.singleton_inj.mp hcell
          rfl
    refine .inr ⟨fun _ => by rw [Fits, hexit], fun _ => by rw [Halts, hexit]; exact id, hid, hquiet,
      hdescribed, fun hhalted => ?_⟩
    have hstarted := hhalted.idle
    rw [List.any_eq_false] at hstarted
    exact hstarted _ (hevents .started (by simp)) rfl
  · exact absurd h (by simp)

theorem isCancelled_replay (o : PyDict) :
    isCancelled P (Dict.set o "durable_replay" (.bool true)) = isCancelled P o := by
  rw [isCancelled, isCancelled, Interpreter.field, Interpreter.field,
    Dict.get?_set_of_ne (by decide)]

theorem described_replay (o : PyDict) : replayLine P o ∈ descriptions P o := by
  simp [descriptions, replayLine]

/-- A replayed outcome is halted when it says so. -/
theorem halted_replay {o : PyDict} {cell : Cell}
    (houtcome : cell.outcome = Dict.set o "durable_replay" (.bool true))
    (hevents : cell.events = if isCancelled P cell.outcome then [.cancelled] else []) :
    cell.Halted ↔ Dict.get? o "status" = some (.str "cancelled") ∧
      Dict.get? o "executed" = some (.bool false) := by
  have hstatus : Dict.get? cell.outcome "status" = Dict.get? o "status" := by
    rw [houtcome, Dict.get?_set_of_ne (by decide)]
  have hexecuted : Dict.get? cell.outcome "executed" = Dict.get? o "executed" := by
    rw [houtcome, Dict.get?_set_of_ne (by decide)]
  have hidle : cell.events.any BatchEvent.isStarted = false := by
    rw [hevents]
    split <;> rfl
  exact ⟨fun h => ⟨hstatus ▸ h.status, hexecuted ▸ h.executed⟩,
    fun h => ⟨hidle, hstatus.trans h.1, hexecuted.trans h.2⟩⟩

/-- A batch that was stopped before it called the broker is halted if the outcome was
persisted. -/
theorem halted_insideCells {call : BatchCall} :
    (∀ cell ∈ insideCells P i call calls, cell.Halted) ↔ call.2.finishFault = none := by
  constructor
  · intro h
    cases hfault : call.2.finishFault with
    | none => rfl
    | some f =>
        -- The outcome of the call itself says that it needs reconciliation.
        have hmem : Dict.merge (cancelledCell P i call []).outcome (unpersistedFields f) ∈
            (insideCells P i call calls).map (·.outcome) := by
          rw [insideCells, hfault, outcomes_relined]
          exact List.mem_cons_self
        obtain ⟨cell, hcell, houtcome⟩ := List.mem_map.mp hmem
        have hstatus := (h cell hcell).status
        rw [houtcome, unpersisted_status] at hstatus
        simp at hstatus
  · intro hfault cell hmem
    rw [insideCells, hfault, relined_none] at hmem
    rcases List.mem_cons.mp hmem with rfl | hmem
    · exact ⟨rfl, rfl, rfl⟩
    · exact halted_cancelledCells hmem

/-- The cell of a call whose receipt is a cancelled one. -/
theorem receiptCell_eq (call : BatchCall) (r : RunnerReceipt) : ∃ cell,
    receiptCell P i call r = [cell] ∧
      Dict.get? cell.outcome "call_id" = some (.str (call.1.callId P i)) ∧
      cell.line ∈ descriptions P cell.outcome ∧ .started ∈ cell.events := by
  obtain ⟨cell, hcell⟩ : ∃ cell, receiptCell P i call r = [cell] := by
    cases hfault : call.2.finishFault <;> simp [receiptCell, relined, hfault]
  obtain ⟨hid, hdescribed, hevents⟩ := described_handed (described_answered rfl (by simp)) hcell
  exact ⟨cell, hcell, hid, hdescribed, hevents .started (by simp)⟩

/-- What is halted after a replayed cancellation. -/
theorem halts_iff {cells : List Cell} (h : Cells P maxResultChars i calls cells) :
    (∀ cell ∈ cells, cell.Halted) ↔ Halts P calls := by
  induction h with
  | nil => exact ⟨fun _ => trivial, fun _ _ h => absurd h List.not_mem_nil⟩
  | stop hexit =>
      rw [Halts, hexit]
      refine ⟨fun _ => trivial, fun _ cell hmem => ?_⟩
      rcases List.mem_cons.mp hmem with rfl | hmem
      · exact halted_cancelledCell _ rfl
      · exact halted_cancelledCells hmem
  | pass hcell _ ih =>
      rcases passed_cases hcell with ⟨o, hexit, houtcome, -, hevents⟩ | hplain
      · rw [Halts, hexit, List.forall_mem_cons, ih, halted_replay houtcome hevents, and_assoc]
      · rw [List.forall_mem_cons]
        exact ⟨fun h => absurd h.1 hplain.attempted, fun h => absurd h (hplain.runs _)⟩
  | inside hexit =>
      rw [Halts, hexit]
      exact halted_insideCells
  | receipt hexit =>
      rw [Halts, hexit]
      refine ⟨fun h => ?_, False.elim⟩
      obtain ⟨cell, hcell, -, -, hstarted⟩ := receiptCell_eq (P := P) (i := _) _ _
      rw [hcell] at h
      have hidle := (h _ List.mem_cons_self).idle
      rw [List.any_eq_false] at hidle
      exact hidle _ (List.mem_append_left _ hstarted) rfl

/-- The line is put in the place of the last one. -/
theorem mem_relined_last (f : String × String) (o : PyDict) (cell : Cell) {rest : List Cell}
    (h : rest ≠ []) : ∃ c ∈ relined P (some f) o (cell :: rest),
      c.line = unpersistedLine P o f ∧ ∃ c' ∈ rest, c.outcome = c'.outcome := by
  induction rest generalizing cell with
  | nil => exact absurd rfl h
  | cons c rest ih =>
      have hcons : relined P (some f) o (cell :: c :: rest) =
          cell :: relined P (some f) o (c :: rest) := by
        simp [relined]
      rw [hcons]
      cases rest with
      | nil => exact ⟨_, List.mem_cons_of_mem _ List.mem_cons_self, rfl, c, List.mem_cons_self, rfl⟩
      | cons c₁ rest =>
          obtain ⟨d, hd, hline, c', hc', houtcome⟩ := ih c (by simp)
          exact ⟨d, List.mem_cons_of_mem _ hd, hline, c', List.mem_cons_of_mem _ hc', houtcome⟩

theorem getLast?_append (s t : String) {c : Char} (h : t.toList.getLast? = some c) :
    (s ++ t).toList.getLast? = some c := by
  rw [String.toList_append, List.getLast?_append, h]
  rfl

/-- The summary of a cancelled call's result, whatever `lower` does to it. -/
theorem errorSummary_cancelled :
    (errorSummary P "cancelled before execution" 300).toList.getLast? = some 'n' := by
  have hfacts : ¬ strip "cancelled before execution" = "" ∧
      (splitLines (strip "cancelled before execution").toList []).map
        (fun l => strip (String.ofList l)) = ["cancelled before execution"] ∧
      strip "cancelled before execution" = "cancelled before execution" ∧
      detailAfter ["cancelled before execution"] "--- stderr ---" = "" ∧
      detailAfter ["cancelled before execution"] "--- stdout ---" = "" := by
    decide +kernel
  obtain ⟨hne, hlines, hstrip, hstderr, hstdout⟩ := hfacts
  have hfind (p : String → Bool) :
      (["cancelled before execution"].find? p).getD "cancelled before execution" =
        "cancelled before execution" := by
    cases hp : p "cancelled before execution" <;> simp [hp]
  have hexit (p : String → Bool) : (["cancelled before execution"].find? p).getD "" =
      if p "cancelled before execution" then "cancelled before execution" else "" := by
    cases hp : p "cancelled before execution" <;> simp [hp]
  unfold errorSummary
  dsimp only
  rw [if_neg hne, hlines, hstderr, if_pos rfl, hstdout, if_pos rfl, hstrip, hfind, hexit]
  cases startsLike P "cancelled before execution" "exit:" <;> decide +kernel

/-- No line of an outcome that was not persisted describes a call that was not attempted. -/
theorem unpersistedLine_notMem (f : String × String) (o : PyDict) (j : Nat) (call : BatchCall) :
    unpersistedLine P o f ∉ descriptions P (cancelledCell P j call []).outcome := by
  intro hmem
  have hlast : (unpersistedLine P o f).toList.getLast? = some ')' :=
    getLast?_append _ _ (getLast?_append _ ")" rfl)
  have hfield : P.field (cancelledCell P j call []).outcome "result" = "cancelled before execution" :=
    congrArg P.text (orElse_str_empty _)
  have htext : P.text (orElse (Dict.get? (cancelledCell P j call []).outcome "model_result")
      (orElse (Dict.get? (cancelledCell P j call []).outcome "result") (.str ""))) =
      "cancelled before execution" := rfl
  have hn : (unpersistedLine P o f).toList.getLast? = some 'n' := by
    rw [descriptions, hfield, htext] at hmem
    obtain ⟨name, -, hline⟩ := List.mem_flatMap.mp hmem
    simp only [List.mem_cons, List.not_mem_nil, or_false] at hline
    rcases hline with hline | hline | hline | hline <;> rw [hline]
    · exact getLast?_append _ _ (by decide +kernel)
    · exact getLast?_append _ _ (by decide +kernel)
    · exact getLast?_append _ _ errorSummary_cancelled
    · exact getLast?_append _ _ (by decide +kernel)
  rw [hlast] at hn
  exact absurd hn (by decide)

/-- A batch that was stopped before it called the broker is described by its lines, unless
the line of another call was replaced. -/
theorem sound_insideCells {call : BatchCall} :
    Sound P i (call :: calls) (insideCells P i call calls) ↔
      call.2.finishFault = none ∨ calls = [] := by
  cases hfault : call.2.finishFault with
  | none =>
      rw [insideCells, hfault, relined_none]
      refine ⟨fun _ => .inl rfl, fun _ => sound_cons.mpr ⟨rfl, fun _ _ hmem => ?_, ?_, ?_⟩⟩
      · exact halted_cancelledCells hmem
      · exact described_cancelledCell call _
      · exact sound_cancelledCells
  | some f =>
      rw [insideCells, hfault]
      cases calls with
      | nil =>
          refine ⟨fun _ => .inr rfl, fun _ => sound_cons.mpr ⟨?_, ?_, ?_, sound_cancelledCells⟩⟩
          · exact unpersisted_call_id _ f
          · exact fun _ _ hmem => absurd hmem List.not_mem_nil
          · exact described_unpersisted _ f
      | cons call' calls =>
          refine ⟨fun h => ?_, fun h => by simp at h⟩
          have hrest : cancelledCells P (i + 1) (call' :: calls) ≠ [] := by simp [cancelledCells]
          obtain ⟨cell, hmem, hline, c', hc', houtcome⟩ := mem_relined_last (P := P) f
            (cancelledCell P i call [.reserved, .cancelled]).outcome
            ((cancelledCell P i call [.reserved, .cancelled]).handed (some f)) hrest
          obtain ⟨j, call'', rfl⟩ := mem_cancelledCells hc'
          have hdescribed := h.described cell hmem
          rw [hline, houtcome] at hdescribed
          exact absurd hdescribed (unpersistedLine_notMem f _ j call'')

/-- **The three clauses hold exactly under the condition.** -/
theorem sound_iff {cells : List Cell} (h : Cells P maxResultChars i calls cells) :
    Sound P i calls cells ↔ Fits P i calls := by
  induction h with
  | nil => exact ⟨fun _ => trivial, fun _ => ⟨rfl, .nil, fun _ h => absurd h List.not_mem_nil⟩⟩
  | stop hexit =>
      rw [Fits, hexit, sound_cons]
      exact ⟨fun _ => trivial, fun _ => ⟨rfl, fun _ _ hmem => halted_cancelledCells hmem,
        described_cancelledCell _ _, sound_cancelledCells⟩⟩
  | pass hcell hcells ih =>
      rw [sound_cons, ih]
      rcases passed_cases hcell with ⟨o, hexit, houtcome, hline, hevents⟩ | hplain
      · have hid : Dict.get? (Dict.set o "durable_replay" (.bool true)) "call_id" =
            Dict.get? o "call_id" := Dict.get?_set_of_ne (by decide) _
        have hcancelled (e : Bool) : (if e then [BatchEvent.cancelled] else []).any
            BatchEvent.isCancelled = e := by
          cases e <;> rfl
        rw [Fits, hexit, hevents, hcancelled, halts_iff hcells, hline, houtcome, hid,
          isCancelled_replay]
        exact and_congr_right fun _ => and_congr_right fun _ => and_iff_right (described_replay _)
      · rw [hplain.fits]
        refine ⟨fun h => h.2.2.2, fun h => ⟨hplain.id, fun hc => ?_, hplain.described, h⟩⟩
        exact absurd (hplain.quiet.symm.trans hc) (by simp)
  | inside hexit =>
      rw [Fits, hexit]
      exact sound_insideCells
  | receipt hexit =>
      rw [Fits, hexit]
      refine ⟨fun _ => trivial, fun _ => ?_⟩
      obtain ⟨cell, hcell, hid, hdescribed, -⟩ := receiptCell_eq (P := P) (i := _) _ _
      rw [hcell]
      exact sound_cons.mpr ⟨hid, fun _ _ hmem => halted_cancelledCells hmem, hdescribed,
        sound_cancelledCells⟩

/-! ## 7.  Batches -/

theorem eventsAt_of_lt {cells : List Cell} {i j : Nat} (h : j < i) :
    eventsAt (notes i cells) j = [] := by
  induction cells generalizing i with
  | nil => rfl
  | cons cell cells ih =>
      have hne : ∀ e ∈ cell.events.map fun e => (i, e), ¬ (e.1 == j) = true := by
        simp [h.ne']
      rw [notes, eventsAt, List.filter_append, List.filter_eq_nil_iff.mpr hne, List.nil_append]
      exact ih (Nat.lt_succ_of_lt h)

theorem eventsAt_notes {cells : List Cell} {k : Nat} {cell : Cell} (h : cells[k]? = some cell)
    (i : Nat) : eventsAt (notes i cells) (i + k) = cell.events := by
  induction cells generalizing i k with
  | nil => exact absurd h (by simp)
  | cons c cells ih =>
      rw [notes, eventsAt, List.filter_append, List.map_append]
      cases k with
      | zero =>
          obtain rfl : c = cell := by simpa using h
          have hrest : eventsAt (notes (i + 1) cells) i = [] :=
            eventsAt_of_lt (Nat.lt_succ_self i)
          rw [eventsAt] at hrest
          rw [Nat.add_zero, hrest, List.append_nil, List.filter_map, List.map_map]
          simp [Function.comp_def]
      | succ k =>
          have hne : ∀ e ∈ c.events.map fun e => (i, e), ¬ (e.1 == i + (k + 1)) = true := by
            simp
          rw [List.filter_eq_nil_iff.mpr hne, List.map_nil, List.nil_append]
          have hcell := ih (k := k) (by simpa using h) (i + 1)
          rwa [eventsAt, Nat.add_assoc, Nat.add_comm 1] at hcell

/-- The cells of a result are those that were made. -/
theorem cells_of_appended {s : BatchState} {cells : List Cell} (h : Appended 0 {} s cells) :
    s.cells = cells := by
  have houtcomes : s.outcomes = cells.map (·.outcome) := h.outcomes
  have hresults : s.results = cells.map (·.line) := h.results
  have htrace : s.trace = notes 0 cells := h.trace
  rw [BatchState.cells, houtcomes, hresults, htrace, List.zip_map']
  refine List.ext_getElem? fun k => ?_
  rw [List.getElem?_map, List.getElem?_zipIdx, List.getElem?_map]
  cases hk : cells[k]? with
  | none => rfl
  | some cell =>
      have hevents := eventsAt_notes hk 0
      simp only [Option.map_some, hevents]

theorem length_cancelledCells : (cancelledCells P i calls).length = calls.length := by
  induction calls generalizing i with
  | nil => rfl
  | cons call calls ih => rw [cancelledCells, List.length_cons, List.length_cons, ih]

theorem length_relined (fault : Option (String × String)) (o : PyDict) (cells : List Cell) :
    (relined P fault o cells).length = cells.length := by
  have h := congrArg List.length (outcomes_relined (P := P) fault o cells)
  rwa [List.length_map, List.length_map] at h

theorem length_of_cells {cells : List Cell} (h : Cells P maxResultChars i calls cells) :
    cells.length = calls.length := by
  induction h with
  | nil => rfl
  | stop _ => rw [List.length_cons, List.length_cons, length_cancelledCells]
  | pass _ _ ih => rw [List.length_cons, List.length_cons, ih]
  | inside _ =>
      rw [insideCells, length_relined, List.length_cons, List.length_cons, length_cancelledCells]
  | receipt _ =>
      rw [List.length_append, List.length_map, receiptCell, length_relined, length_cancelledCells,
        List.length_cons]
      exact Nat.add_comm ..

/-- **Batches are answered completely and in order**, exactly under the condition. -/
theorem answered_iff {s : BatchState} (h : executeToolBatch P maxResultChars calls = .ok s) :
    Answered P calls s ↔ Fits P 0 calls := by
  obtain ⟨cells, hcells, happ⟩ := runBatch_cells h
  have houtcomes : s.outcomes = cells.map (·.outcome) := happ.outcomes
  have hresults : s.results = cells.map (·.line) := happ.results
  have htrace : s.trace = notes 0 cells := happ.trace
  have hok := ok_of_cells hcells
  rw [← sound_iff hcells]
  constructor
  · rintro ⟨hids, -, hdescribed, -, hhalted, -, -⟩
    rw [cells_of_appended happ] at hdescribed hhalted
    exact ⟨by rw [← hids, houtcomes, List.map_map]; rfl, hhalted, hdescribed⟩
  · rintro ⟨hids, hhalted, hdescribed⟩
    refine ⟨by rw [← hids, houtcomes, List.map_map]; rfl, ?_, ?_, ?_, ?_, ?_, ?_⟩
    · rw [hresults, List.length_map, length_of_cells hcells]
    · rwa [cells_of_appended happ]
    · rw [htrace]
      exact (starts_notes hok 0).1
    · rwa [cells_of_appended happ]
    · rw [cells_of_appended happ]
      exact fun cell hmem => (hok cell hmem).finished
    · rw [cells_of_appended happ]
      intro hterminate cell hmem
      rw [BatchState.terminate, houtcomes, Bool.and_eq_true, List.all_eq_true] at hterminate
      have hflag := hterminate.2 _ (List.mem_map_of_mem hmem)
      refine ⟨hflag, Bool.eq_false_iff.mpr fun hunpersisted => ?_⟩
      exact absurd (hflag.symm.trans ((hok cell hmem).persisted hunpersisted)) (by simp)

/-- An interpreter for texts. -/
def batchInterpreter : Interpreter :=
  ⟨fun _ => "", id, fun _ => none, id, fun _ => none, fun _ => .ok ""⟩

/-- Two calls of bound tools; the stop predicate fires after the first was reserved. -/
def interruptedCalls (fault : Option (String × String)) : List BatchCall :=
  [(⟨.dict [("tool", .str "a"), ("id", .str "1")], true, .none, .none⟩,
      { stopBefore := false, stopInside := true, invoked := .raised "", finishFault := fault }),
    (⟨.dict [("tool", .str "b"), ("id", .str "2")], true, .none, .none⟩,
      { stopBefore := true, invoked := .raised "" })]

def interruptedBatch (fault : Option (String × String)) : BatchState :=
  (executeToolBatch batchInterpreter 100 (interruptedCalls fault)).toOption.getD {}

theorem answered_interrupted : Answered batchInterpreter (interruptedCalls none)
    (interruptedBatch none) := by
  have h : executeToolBatch batchInterpreter 100 (interruptedCalls none) =
      .ok (interruptedBatch none) := rfl
  exact (answered_iff h).mpr (.inl rfl)

/-- The outcome of the first call is not persisted, and the line of the second is replaced. -/
theorem interrupted_line_replaced :
    executeToolBatch batchInterpreter 100 (interruptedCalls (some ("OSError", "disk full"))) =
      .ok (interruptedBatch (some ("OSError", "disk full"))) ∧
    ¬ Answered batchInterpreter (interruptedCalls (some ("OSError", "disk full")))
      (interruptedBatch (some ("OSError", "disk full"))) := by
  refine ⟨rfl, fun h => ?_⟩
  have hlines : ((interruptedBatch (some ("OSError", "disk full"))).cells.all fun cell =>
      (descriptions batchInterpreter cell.outcome).contains cell.line) = false := by
    decide +kernel
  refine absurd (List.all_eq_true.mpr fun cell hmem => ?_) (by rw [hlines]; simp)
  exact List.contains_iff_mem.mpr (h.described cell hmem)

end Capability
end VariantOne
