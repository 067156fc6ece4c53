import Mathlib.Data.List.Perm.Basic
import VariantOne.Core.Fingerprint
import VariantOne.Lib.Txn
import VariantOne.SessionRuntime.OuterCalls

/-!
# Replays of provider calls

A call is told to execute once, its terminal row stays as it is, and a repeated
reservation replays it or is refused.  `effect_of_step` says what a step does to the row
of a call; all of this follows from it along every run.

That the result of an execution is the one its replays show needs more.  A replay that
finds no outcome takes the process of the execution for stopped and settles the row; if
the execution is still in flight, one of the two shows a result that is not recorded.
`Undisturbed` leaves these reservations out, and `InFlight` is what then holds between
the transactions.
-/

namespace VariantOne
namespace SessionRuntime

/-! ## 1.  What a transaction does -/

/-- The token with every field stripped. -/
def OuterToken.stripped (t : OuterToken) : OuterToken :=
  ⟨strip t.chatId, strip t.runId, strip t.callId, strip t.toolName, strip t.requestFingerprint⟩

/-- The identity a token is reserved under. -/
def OuterToken.identity (t : OuterToken) : CallIdentity := t.stripped.key

theorem chatIdValue_eq_ok {value chatId : String} (h : chatIdValue value = .ok chatId) :
    chatId = strip value := by
  unfold chatIdValue at h
  dsimp only at h
  split at h
  · exact absurd h (by simp)
  · split at h
    · exact absurd h (by simp)
    · exact (Except.ok.inj h).symm

theorem boundedText_eq_ok {value message text : String} {limit : Nat}
    (h : boundedText value limit message = .ok text) : text = strip value := by
  unfold boundedText at h
  split at h
  · exact absurd h (by simp)
  · exact (Except.ok.inj h).symm

/-- A check passes the stripped token. -/
theorem OuterToken.checked_eq_ok {t clean : OuterToken} (h : t.checked = .ok clean) :
    clean = t.stripped := by
  simp only [OuterToken.checked, except_bind_eq_ok] at h
  obtain ⟨chatId, hchat, runId, hrun, callId, hcall, toolName, htool, fingerprint, hprint, h⟩ := h
  obtain rfl := chatIdValue_eq_ok hchat
  obtain rfl := boundedText_eq_ok hrun
  obtain rfl := boundedText_eq_ok hcall
  obtain rfl := boundedText_eq_ok htool
  obtain rfl := boundedText_eq_ok hprint
  exact (Except.ok.inj h).symm

/-- The row was reserved for the request of the token. -/
def OuterToken.Binds (t : OuterToken) (row : OuterToolCall) : Prop :=
  row.toolName = t.stripped.toolName ∧ row.requestFingerprint = t.stripped.requestFingerprint

/-- A reservation finds the row of its request, or inserts it. -/
theorem reserveOuterToolCall_eq_ok {token : OuterToken} {hasRuntime : Bool} {now : ℚ}
    {t u : OuterCallTable} {row : OuterToolCall} {found : Bool}
    (h : reserveOuterToolCall token hasRuntime now t = .ok ((row, found), u)) :
    token.checked = .ok token.stripped ∧
      (found = true ∧ u = t ∧ t.find? token.identity = some row ∧ token.Binds row ∨
        found = false ∧ hasRuntime = true ∧ t.find? token.identity = none ∧
          row = token.stripped.dispatchedCall now ∧ u.rows = t.rows ++ [row]) := by
  unfold reserveOuterToolCall at h
  cases hchecked : token.checked with
  | error e => rw [hchecked] at h; exact absurd h (by simp)
  | ok clean =>
      obtain rfl := OuterToken.checked_eq_ok hchecked
      refine ⟨rfl, ?_⟩
      rw [hchecked] at h
      dsimp only at h
      cases hfind : t.find? token.stripped.key with
      | some old =>
          rw [hfind] at h
          dsimp only at h
          split at h
          · exact absurd h (by simp)
          · rename_i hsame
            push Not at hsame
            simp only [Except.ok.injEq, Prod.mk.injEq] at h
            obtain ⟨⟨rfl, rfl⟩, rfl⟩ := h
            exact .inl ⟨rfl, rfl, hfind, hsame⟩
      | none =>
          rw [hfind] at h
          dsimp only at h
          split at h
          · exact absurd h (by simp)
          · rename_i hruntime
            split at h
            · rename_i t' hinsert
              simp only [Except.ok.injEq, Prod.mk.injEq] at h
              obtain ⟨⟨rfl, rfl⟩, rfl⟩ := h
              exact .inr ⟨rfl, by simpa using hruntime, hfind, rfl,
                (Table.insert?_eq_some hinsert).2⟩
            · exact absurd h (by simp)

/-- A reservation of a known identity. -/
theorem reserveOuterToolCall_of_row {token : OuterToken} {t : OuterCallTable} {row : OuterToolCall}
    (hchecked : token.checked = .ok token.stripped) (hrow : t.find? token.identity = some row)
    (hasRuntime : Bool) (now : ℚ) :
    (token.Binds row → reserveOuterToolCall token hasRuntime now t = .ok ((row, true), t)) ∧
      (¬ token.Binds row → ∃ e, reserveOuterToolCall token hasRuntime now t = .error e) := by
  have hfind : t.find? token.stripped.key = some row := hrow
  unfold reserveOuterToolCall
  rw [hchecked]
  dsimp only
  rw [hfind]
  dsimp only
  constructor
  · intro hbinds
    rw [if_neg (by push Not; exact hbinds)]
  · intro hbinds
    rw [if_pos (by rw [OuterToken.Binds, not_and_or] at hbinds; exact hbinds)]
    exact ⟨_, rfl⟩

/-- A finish reads back a terminal row, or writes a dispatched one. -/
theorem finishOuterToolCall_eq_ok {token : OuterToken} {state : OuterCallState} {outcome : PyDict}
    {error : String} {now : ℚ} {t u : OuterCallTable} {record : OuterToolCall}
    (h : finishOuterToolCall token state outcome error now t = .ok (record, u)) :
    state.terminal = true ∧ ∃ row, t.find? token.key = some row ∧
      row.requestFingerprint = token.requestFingerprint ∧
      (row.state.terminal = true ∧ record = row ∧ u = t ∨
        row.state.terminal = false ∧ ∃ doc, storedDict outcome = .ok doc ∧
          record = finishChange state doc (clip error 4000) now row ∧
          ∀ k, u.find? k = if k = token.key then some record else t.find? k) := by
  unfold finishOuterToolCall at h
  split at h
  · exact absurd h (by simp)
  rename_i hstate
  refine ⟨by simpa using hstate, ?_⟩
  cases hfind : t.find? token.key with
  | none => rw [hfind] at h; exact absurd h (by simp)
  | some row =>
      rw [hfind] at h
      dsimp only at h
      split at h
      · exact absurd h (by simp)
      rename_i hprint
      refine ⟨row, rfl, not_not.mp hprint, ?_⟩
      split at h
      · rename_i hterminal
        obtain ⟨rfl, rfl⟩ := Prod.mk.inj (Except.ok.inj h)
        exact .inl ⟨hterminal, rfl, rfl⟩
      · rename_i hterminal
        cases hdoc : storedDict outcome with
        | error e => rw [hdoc] at h; exact absurd h (by simp)
        | ok doc =>
            rw [hdoc] at h
            obtain ⟨rfl, rfl⟩ := Prod.mk.inj (Except.ok.inj h)
            refine .inr ⟨by simpa using hterminal, doc, rfl, rfl, fun k => ?_⟩
            rw [Table.find?_updateWhere]
            have hkey := Table.key_of_find? hfind
            by_cases hk : k = token.key
            · rw [if_pos hk, hk, hfind, Option.map_some, if_pos (by simp)]
            · rw [if_neg hk]
              cases hother : t.find? k with
              | none => rfl
              | some other =>
                  have hne : other.key ≠ row.key := fun heq =>
                    hk ((Table.key_of_find? hother).symm.trans (heq.trans hkey))
                  rw [Option.map_some, if_neg (by simpa using hne)]

/-- A finish of the request a row was reserved for. -/
theorem finishOuterToolCall_of_row {token : OuterToken} (state : OuterCallState) {outcome : PyDict}
    {t : OuterCallTable} {row : OuterToolCall} {doc : List (String × Json)}
    (hstate : state.terminal = true) (hrow : t.find? token.key = some row)
    (hprint : row.requestFingerprint = token.requestFingerprint)
    (hdoc : storedDict outcome = .ok doc) (error : String) (now : ℚ) :
    ∃ record u, finishOuterToolCall token state outcome error now t = .ok (record, u) := by
  unfold finishOuterToolCall
  rw [if_neg (by simp [hstate]), hrow]
  dsimp only
  rw [if_neg (by simp [hprint])]
  split
  · exact ⟨_, _, rfl⟩
  · rw [hdoc]
    exact ⟨_, _, rfl⟩

/-! ## 2.  What a step does to the row of a call -/

variable {H : Host} {P : Interpreter}

/-- The row of a call is kept, inserted, or settled. -/
inductive RowStep : Option OuterToolCall → Option OuterToolCall → Prop
  | kept (row : Option OuterToolCall) : RowStep row row
  | reserved (clean : OuterToken) (now : ℚ) : RowStep none (some (clean.dispatchedCall now))
  | settled {row : OuterToolCall} (state : OuterCallState) (doc : List (String × Json))
      (error : String) (now : ℚ) (hrow : row.state.terminal = false)
      (hstate : state.terminal = true) :
      RowStep (some row) (some (finishChange state doc error now row))

/-- A row keeps its request, and a terminal row is kept as it is. -/
theorem RowStep.row {row : OuterToolCall} {r : Option OuterToolCall} (h : RowStep (some row) r) :
    ∃ row', r = some row' ∧ row'.toOuterToken = row.toOuterToken ∧
      (row.state.terminal = true → row' = row) := by
  cases h with
  | kept => exact ⟨row, rfl, rfl, fun _ => rfl⟩
  | settled state doc error now hrow hstate =>
      exact ⟨_, rfl, rfl, fun h => absurd (hrow.symm.trans h) (by simp)⟩

/-- The reply tells a call to execute. -/
def OuterReply.executes (k : CallIdentity) : OuterReply → Bool
  | .execute token => decide (token.identity = k)
  | _ => false

abbrev OuterHistory := List (OuterStep × OuterReply)

/-- How often a call was told to execute. -/
def executions (k : CallIdentity) (h : OuterHistory) : Nat := h.countP fun e => e.2.executes k

/-- What a reservation does. -/
theorem reserve_cases {c : OuterRequest} {hasRuntime : Bool} {now : ℚ} {s s' : OuterCalls}
    {reply : OuterReply} (h : reserveProviderOuterCall H c hasRuntime now s = (reply, s')) :
    (∃ e, reply = .raised e ∧ s' = s) ∨
    ∃ token, c.token H = .ok token ∧ token.checked = .ok token.stripped ∧
      ((reply = .execute token ∧ hasRuntime = true ∧ s.call? token.identity = none ∧
          s'.calls.rows = s.calls.rows ++ [token.stripped.dispatchedCall now] ∧
          s'.executing = s.executing ++ [token] ∧ s'.settling = s.settling) ∨
        ∃ row, s.call? token.identity = some row ∧ token.Binds row ∧
          ((row.state.terminal = true ∧
              reply = .replay token row.state (entriesToPy row.outcome) ∧ s' = s) ∨
            row.state.terminal = false ∧ reply = .settling token ∧
              s' = { s with settling := s.settling ++
                [(token, uncertainOuterCallOutcome c.toolName c.args c.outerToolCallId)] })) := by
  unfold reserveProviderOuterCall at h
  cases htoken : c.token H with
  | error e =>
      rw [htoken] at h
      obtain ⟨rfl, rfl⟩ := Prod.mk.inj h
      exact .inl ⟨e, rfl, rfl⟩
  | ok token =>
      rw [htoken] at h
      dsimp only at h
      cases hreserve : reserveOuterToolCall token hasRuntime now s.calls with
      | error e =>
          rw [hreserve] at h
          obtain ⟨rfl, rfl⟩ := Prod.mk.inj h
          exact .inl ⟨e, rfl, rfl⟩
      | ok p =>
          obtain ⟨⟨row, found⟩, t⟩ := p
          rw [hreserve] at h
          obtain ⟨hchecked, hcases⟩ := reserveOuterToolCall_eq_ok hreserve
          refine .inr ⟨token, rfl, hchecked, ?_⟩
          rcases hcases with ⟨rfl, rfl, hrow, hbinds⟩ | ⟨rfl, hruntime, hnone, rfl, hrows⟩
          · dsimp only at h
            refine .inr ⟨row, hrow, hbinds, ?_⟩
            split at h
            · rename_i hterminal
              obtain ⟨rfl, rfl⟩ := Prod.mk.inj h
              exact .inl ⟨hterminal, rfl, rfl⟩
            · rename_i hterminal
              obtain ⟨rfl, rfl⟩ := Prod.mk.inj h
              exact .inr ⟨by simpa using hterminal, rfl, rfl⟩
          · obtain ⟨rfl, rfl⟩ := Prod.mk.inj h
            exact .inl ⟨rfl, hruntime, hnone, hrows, rfl, rfl⟩

/-- What the second transaction of a replay does. -/
theorem settle_cases {index : Nat} {now : ℚ} {s s' : OuterCalls} {reply : OuterReply}
    (h : settleReplay index now s = (reply, s')) :
    (s.settling[index]? = none ∧ reply = .none ∧ s' = s) ∨
    ∃ token uncertain, s.settling[index]? = some (token, uncertain) ∧
      s'.executing = s.executing ∧ s'.settling = s.settling.eraseIdx index ∧
      ((∃ e, reply = .raised e ∧ s'.calls = s.calls ∧
          finishOuterToolCall token .unknownEffect uncertain
            "prior process stopped after durable dispatch" now s.calls = .error e) ∨
        ∃ record, reply = .replay token .unknownEffect uncertain ∧
          finishOuterToolCall token .unknownEffect uncertain
            "prior process stopped after durable dispatch" now s.calls = .ok (record, s'.calls)) := by
  unfold settleReplay at h
  cases hget : s.settling[index]? with
  | none =>
      rw [hget] at h
      obtain ⟨rfl, rfl⟩ := Prod.mk.inj h
      exact .inl ⟨rfl, rfl, rfl⟩
  | some p =>
      obtain ⟨token, uncertain⟩ := p
      rw [hget] at h
      dsimp only at h
      refine .inr ⟨token, uncertain, rfl, ?_⟩
      cases hfinish : finishOuterToolCall token .unknownEffect uncertain
          "prior process stopped after durable dispatch" now s.calls with
      | error e =>
          rw [hfinish] at h
          obtain ⟨rfl, rfl⟩ := Prod.mk.inj h
          exact ⟨rfl, rfl, .inl ⟨e, rfl, rfl, rfl⟩⟩
      | ok p =>
          obtain ⟨record, t⟩ := p
          rw [hfinish] at h
          obtain ⟨rfl, rfl⟩ := Prod.mk.inj h
          exact ⟨rfl, rfl, .inr ⟨record, rfl, rfl⟩⟩

/-- The text a failed outcome is recorded with. -/
def outcomeError (P : Interpreter) (outcome : PyDict) : String :=
  if terminalState P outcome ≠ .succeeded then clip (P.field outcome "result") 4000 else ""

/-- What the end of an execution does. -/
theorem finish_cases {index : Nat} {outcome : PyDict} {now : ℚ} {s s' : OuterCalls}
    {reply : OuterReply} (h : finishProviderOuterCall P index outcome now s = (reply, s')) :
    (s.executing[index]? = none ∧ reply = .none ∧ s' = s) ∨
    ∃ token, s.executing[index]? = some token ∧ s'.executing = s.executing.eraseIdx index ∧
      s'.settling = s.settling ∧
      ((∃ e, reply = .raised e ∧ s'.calls = s.calls ∧
          finishOuterToolCall token (terminalState P outcome) outcome (outcomeError P outcome) now
            s.calls = .error e) ∨
        ∃ record, reply = .recorded record ∧
          finishOuterToolCall token (terminalState P outcome) outcome (outcomeError P outcome) now
            s.calls = .ok (record, s'.calls)) := by
  unfold finishProviderOuterCall at h
  cases hget : s.executing[index]? with
  | none =>
      rw [hget] at h
      obtain ⟨rfl, rfl⟩ := Prod.mk.inj h
      exact .inl ⟨rfl, rfl, rfl⟩
  | some token =>
      rw [hget] at h
      dsimp only at h
      refine .inr ⟨token, rfl, ?_⟩
      cases hfinish : finishOuterToolCall token (terminalState P outcome) outcome
          (outcomeError P outcome) now s.calls with
      | error e =>
          rw [← outcomeError, hfinish] at h
          obtain ⟨rfl, rfl⟩ := Prod.mk.inj h
          exact ⟨rfl, rfl, .inl ⟨e, rfl, rfl, rfl⟩⟩
      | ok p =>
          obtain ⟨record, t⟩ := p
          rw [← outcomeError, hfinish] at h
          obtain ⟨rfl, rfl⟩ := Prod.mk.inj h
          exact ⟨rfl, rfl, .inr ⟨record, rfl, rfl⟩⟩

/-- The row of a call after a finish. -/
theorem rowStep_finish {token : OuterToken} {state : OuterCallState} {outcome : PyDict}
    {error : String} {now : ℚ} {t u : OuterCallTable} {record : OuterToolCall}
    (h : finishOuterToolCall token state outcome error now t = .ok (record, u))
    (k : CallIdentity) : RowStep (t.find? k) (u.find? k) := by
  obtain ⟨hstate, row, hrow, -, ⟨-, -, rfl⟩ | ⟨hopen, doc, -, rfl, hu⟩⟩ :=
    finishOuterToolCall_eq_ok h
  · exact .kept _
  · rw [hu]
    split
    · rename_i hk
      rw [hk, hrow]
      exact .settled state doc _ now hopen hstate
    · exact .kept _

theorem isSome_finish {token : OuterToken} {state : OuterCallState} {outcome : PyDict}
    {error : String} {now : ℚ} {t u : OuterCallTable} {record : OuterToolCall}
    (h : finishOuterToolCall token state outcome error now t = .ok (record, u))
    (k : CallIdentity) : (u.find? k).isSome = (t.find? k).isSome := by
  obtain ⟨-, row, hrow, -, ⟨-, -, rfl⟩ | ⟨-, doc, -, rfl, hu⟩⟩ := finishOuterToolCall_eq_ok h
  · rfl
  · rw [hu]
    split
    · rename_i hk
      rw [hk, hrow]
      rfl
    · rfl

/-- **What a step does to the row of a call**: it inserts the row exactly when it tells
the call to execute. -/
theorem effect_of_step {l : OuterStep} {s s' : OuterCalls} {r : OuterReply}
    (h : OuterCalls.step H P l s = (r, s')) (k : CallIdentity) :
    RowStep (s.call? k) (s'.call? k) ∧
      ((s'.call? k).isSome = true ↔ (s.call? k).isSome = true ∨ r.executes k = true) ∧
      (r.executes k = true → s.call? k = none) := by
  have hquiet : ∀ {r : OuterReply}, r.executes k = false →
      RowStep (s.call? k) (s.call? k) ∧
        ((s.call? k).isSome = true ↔ (s.call? k).isSome = true ∨ r.executes k = true) ∧
        (r.executes k = true → s.call? k = none) := by
    intro r hr
    exact ⟨.kept _, by simp [hr], by simp [hr]⟩
  cases l with
  | reserve c hasRuntime now =>
      rcases reserve_cases h with ⟨e, rfl, rfl⟩ |
        ⟨token, -, -, ⟨rfl, -, hnone, hrows, -, -⟩ | ⟨row, -, -, ⟨-, rfl, rfl⟩ | ⟨-, rfl, rfl⟩⟩⟩
      · exact hquiet rfl
      · have hfind : s'.call? k = if token.identity = k then
            some (token.stripped.dispatchedCall now) else s.call? k :=
          Table.find?_of_rows_append hrows k
        have hexecutes : (OuterReply.execute token).executes k = decide (token.identity = k) := rfl
        rw [hfind, hexecutes]
        by_cases hk : token.identity = k
        · subst hk
          simp only [if_true, decide_true, hnone]
          exact ⟨.reserved _ _, by simp, by simp⟩
        · simp only [if_neg hk, decide_eq_false hk]
          exact ⟨.kept _, by simp, by simp⟩
      · exact hquiet rfl
      · exact hquiet rfl
  | settle index now =>
      rcases settle_cases h with ⟨-, rfl, rfl⟩ |
        ⟨token, uncertain, -, -, -, ⟨e, rfl, hcalls, -⟩ | ⟨record, rfl, hfinish⟩⟩
      · exact hquiet rfl
      · unfold OuterCalls.call?
        rw [hcalls]
        exact hquiet rfl
      · refine ⟨rowStep_finish hfinish k, ?_, fun h => absurd h (by simp [OuterReply.executes])⟩
        unfold OuterCalls.call?
        rw [isSome_finish hfinish k]
        simp [OuterReply.executes]
  | finish index outcome now =>
      rcases finish_cases h with ⟨-, rfl, rfl⟩ |
        ⟨token, -, -, -, ⟨e, rfl, hcalls, -⟩ | ⟨record, rfl, hfinish⟩⟩
      · exact hquiet rfl
      · unfold OuterCalls.call?
        rw [hcalls]
        exact hquiet rfl
      · refine ⟨rowStep_finish hfinish k, ?_, fun h => absurd h (by simp [OuterReply.executes])⟩
        unfold OuterCalls.call?
        rw [isSome_finish hfinish k]
        simp [OuterReply.executes]
  | abandon index =>
      obtain ⟨rfl, rfl⟩ := Prod.mk.inj h
      exact hquiet rfl
  | stop =>
      obtain ⟨rfl, rfl⟩ := Prod.mk.inj h
      exact hquiet rfl

/-! ## 3.  Along every run -/

/-- A call was told to execute exactly if it has a row, and then once. -/
theorem executions_of_run {h : OuterHistory} {s : OuterCalls} (hrun : (outerCalls H P).Run h s)
    (k : CallIdentity) : executions k h = if (s.call? k).isSome = true then 1 else 0 := by
  refine hrun.invariant (I := fun h s => executions k h = if (s.call? k).isSome = true then 1 else 0)
    rfl ?_
  intro h s l r s' _ ih hstep
  obtain ⟨-, hsome, hnone⟩ := effect_of_step hstep k
  have hcount : executions k ((l, r) :: h) = executions k h + if r.executes k = true then 1 else 0 :=
    List.countP_cons
  rw [hcount, ih]
  by_cases hexecutes : r.executes k = true
  · rw [hnone hexecutes, if_neg (by simp), if_pos hexecutes, if_pos (hsome.mpr (.inr hexecutes))]
  · have hiff : (s'.call? k).isSome = true ↔ (s.call? k).isSome = true := by
      rw [hsome, or_iff_left hexecutes]
    rw [if_neg hexecutes, add_zero]
    by_cases hrow : (s.call? k).isSome = true
    · rw [if_pos hrow, if_pos (hiff.mpr hrow)]
    · rw [if_neg hrow, if_neg (hrow ∘ hiff.mp)]

/-- A terminal row stays as it is. -/
theorem terminal_kept {C : OuterHistory → OuterCalls → OuterStep → Prop}
    {h later : OuterHistory} {s s' : OuterCalls} {k : CallIdentity} {row : OuterToolCall}
    (hrow : s.call? k = some row) (hterminal : row.state.terminal = true)
    (hext : (outerCalls H P).Extends C h s later s') : s'.call? k = some row := by
  refine hext.invariant (I := fun _ s => s.call? k = some row) hrow ?_
  intro later s₁ l r s₂ _ hfind _ hstep
  have hrow := (effect_of_step hstep k).1
  rw [hfind] at hrow
  obtain ⟨row', hrow', -, hsame⟩ := hrow.row
  rw [hrow', hsame hterminal]

/-- The row of an execution is the row of its request. -/
theorem row_of_execute {h : OuterHistory} {s : OuterCalls} (hrun : (outerCalls H P).Run h s)
    {c : OuterRequest} {hasRuntime : Bool} {now : ℚ} {token : OuterToken}
    (hmem : (OuterStep.reserve c hasRuntime now, OuterReply.execute token) ∈ h) :
    c.token H = .ok token ∧ token.checked = .ok token.stripped ∧
      ∃ row, s.call? token.identity = some row ∧ token.Binds row := by
  induction hrun with
  | start => exact absurd hmem (by simp)
  | step hrun hstep ih =>
      rename_i h s s' l r
      have hkept := (effect_of_step hstep token.identity).1
      rcases List.mem_cons.mp hmem with heq | hmem
      · obtain ⟨rfl, rfl⟩ := Prod.mk.inj heq
        rcases reserve_cases hstep with ⟨e, he, -⟩ |
          ⟨token', htoken, hchecked, ⟨he, -, hnone, hrows, -, -⟩ |
            ⟨row, -, -, ⟨-, he, -⟩ | ⟨-, he, -⟩⟩⟩
        · exact absurd he (by simp)
        · obtain rfl := OuterReply.execute.inj he
          refine ⟨htoken, hchecked, token.stripped.dispatchedCall now, ?_, rfl, rfl⟩
          exact (Table.find?_of_rows_append hrows token.identity).trans (if_pos rfl)
        · exact absurd he (by simp)
        · exact absurd he (by simp)
      · obtain ⟨htoken, hchecked, row, hrow, htool, hprint⟩ := ih hmem
        rw [hrow] at hkept
        obtain ⟨row', hrow', hsame, -⟩ := hkept.row
        refine ⟨htoken, hchecked, row', hrow', ?_, ?_⟩
        · rw [hsame]; exact htool
        · rw [hsame]; exact hprint

/-! ## 4.  Runs without a replay of a call in flight -/

/-- The reservation will execute, or settle a row without an outcome. -/
def OuterCalls.Opens (s : OuterCalls) (token : OuterToken) (hasRuntime : Bool) : Prop :=
  match s.call? token.identity with
  | none => hasRuntime = true
  | some row => row.state.terminal = false ∧ token.Binds row

/-- Nothing disturbs an execution: a reservation that executes or settles is made under
the identity its row is found by, and while no execution of that identity is in flight. -/
def Undisturbed (H : Host) (s : OuterCalls) : OuterStep → Prop
  | .reserve c hasRuntime _ => ∀ token, c.token H = .ok token →
      token.checked = .ok token.stripped → s.Opens token hasRuntime →
        token.identity = token.key ∧ ∀ t ∈ s.executing, t.key ≠ token.key
  | _ => True

/-- The digest is a hexadecimal text, and no two texts collide. -/
structure Host.Digests (H : Host) : Prop where
  injective : Function.Injective H.sha256
  hexadecimal : ∀ t, strip (H.sha256 t) = H.sha256 t

/-- A replay between its transactions. -/
structure Replaying (H : Host) (s : OuterCalls) (token : OuterToken) (uncertain : PyDict) :
    Prop where
  request : ∃ c : OuterRequest, c.token H = .ok token ∧
    uncertain = uncertainOuterCallOutcome c.toolName c.args c.outerToolCallId
  clean : token.identity = token.key
  row : ∃ row, s.call? token.key = some row ∧
    row.requestFingerprint = token.requestFingerprint ∧
    (row.state.terminal = false ∨
      row.state = .unknownEffect ∧ storedDict uncertain = .ok row.outcome)
  alone : ∀ t ∈ s.executing, t.key ≠ token.key

/-- What holds between the transactions. -/
structure InFlight (H : Host) (s : OuterCalls) : Prop where
  executing : ∀ t ∈ s.executing, ∃ row, s.call? t.key = some row ∧
    row.requestFingerprint = t.requestFingerprint ∧ row.state.terminal = false
  distinct : (s.executing.map OuterToken.key).Nodup
  settling : ∀ p ∈ s.settling, Replaying H s p.1 p.2
  /-- A stored outcome is read back as it is. -/
  canonical : ∀ k row, s.call? k = some row → storedDict (entriesToPy row.outcome) = .ok row.outcome

/-- A result the model was shown. -/
structure ShownResult where
  identity : CallIdentity
  state : OuterCallState
  outcome : PyDict

/-- The result an entry of the history shows: a replay shows what it hands out, and an
execution its own outcome. -/
def shownResult (P : Interpreter) : OuterStep × OuterReply → Option ShownResult
  | (_, .replay token state outcome) => some ⟨token.identity, state, outcome⟩
  | (.finish _ outcome _, .recorded record) => some ⟨record.key, terminalState P outcome, outcome⟩
  | _ => none

/-- The result is the one on record. -/
def ShownResult.OnRecord (x : ShownResult) (s : OuterCalls) : Prop :=
  ∃ row, s.call? x.identity = some row ∧ row.state = x.state ∧ row.state.terminal = true ∧
    storedDict x.outcome = .ok row.outcome

theorem ShownResult.OnRecord.step {x : ShownResult} {s s' : OuterCalls} (hx : x.OnRecord s)
    (h : ∀ k, RowStep (s.call? k) (s'.call? k)) : x.OnRecord s' := by
  obtain ⟨row, hrow, hstate, hterminal, hdoc⟩ := hx
  have hkept := h x.identity
  rw [hrow] at hkept
  obtain ⟨row', hrow', -, hsame⟩ := hkept.row
  obtain rfl := hsame hterminal
  exact ⟨row', hrow', hstate, hterminal, hdoc⟩

/-! ### Documents -/

theorem storedDict_entriesToPy (es : List (String × Json)) :
    storedDict (entriesToPy es) = .ok (Dict.sort (Json.canonEntries es)) := by
  unfold storedDict
  rw [strictEntries_toPy]
  rfl

/-- A stored document is canonical. -/
theorem storedDict_stored {value : PyDict} {doc : List (String × Json)}
    (h : storedDict value = .ok doc) : storedDict (entriesToPy doc) = .ok doc := by
  obtain ⟨es, -, rfl⟩ := except_map_eq_ok.mp h
  rw [storedDict_entriesToPy, Json.canonEntries_sort, Json.canonEntries_canonEntries,
    Dict.sort_sort]

theorem token_eq_ok {c : OuterRequest} {token : OuterToken} (h : c.token H = .ok token) :
    ∃ es, strictEntries c.args "$" = .ok es ∧
      token = ⟨c.chatId, c.runId, c.outerToolCallId, c.toolName,
        H.sha256 (Json.dumps (requestDocument c.toolName (.obj es)))⟩ := by
  obtain ⟨fingerprint, hprint, rfl⟩ := except_map_eq_ok.mp h
  obtain ⟨es, hes, rfl⟩ := requestFingerprint_eq_ok.mp hprint
  exact ⟨es, hes, rfl⟩

/-- The same tool is called with equal arguments. -/
def SameRequest (c c' : OuterRequest) : Prop :=
  c.toolName = c'.toolName ∧ ∃ es es', strictEntries c.args "$" = .ok es ∧
    strictEntries c'.args "$" = .ok es' ∧ Json.canon (.obj es) = Json.canon (.obj es')

/-- Equal fingerprints are fingerprints of the same request. -/
theorem sameRequest_iff (hdigest : Host.Digests H) {c c' : OuterRequest} {token token' : OuterToken}
    (hc : c.token H = .ok token) (hc' : c'.token H = .ok token') :
    token.requestFingerprint = token'.requestFingerprint ↔ SameRequest c c' := by
  obtain ⟨es, hes, rfl⟩ := token_eq_ok hc
  obtain ⟨es', hes', rfl⟩ := token_eq_ok hc'
  rw [requestFingerprint_inj hdigest.injective]
  constructor
  · rintro ⟨htool, hcanon⟩
    exact ⟨htool, es, es', hes, hes', hcanon⟩
  · rintro ⟨htool, fs, fs', hfs, hfs', hcanon⟩
    obtain rfl := Except.ok.inj (hes.symm.trans hfs)
    obtain rfl := Except.ok.inj (hes'.symm.trans hfs')
    exact ⟨htool, hcanon⟩

/-- The entries of an uncertain outcome. -/
def uncertainEntries (toolName callId : String) (args : List (String × Json)) :
    List (String × Json) :=
  [("tool", .str toolName), ("args", .obj args), ("result", .str uncertainMessage),
    ("model_result", .str uncertainMessage), ("ok", .bool false), ("executed", .bool true),
    ("status", .str "needs_reconciliation"), ("call_id", .str callId),
    ("source_chars", .int uncertainMessage.length),
    ("visible_chars", .int uncertainMessage.length), ("truncated", .bool false),
    ("error_class", .str "needs_reconciliation"), ("terminate", .bool false),
    ("durable_replay", .bool true)]

theorem strictEntries_uncertain {toolName callId : String} {args : PyDict}
    {es : List (String × Json)} (h : strictEntries args "$" = .ok es) :
    strictEntries (uncertainOuterCallOutcome toolName args callId) "$" =
      .ok (uncertainEntries toolName callId es) := by
  have hargs (path : String) : strictEntries args path = .ok es := strictEntries_path args path h
  simp only [uncertainOuterCallOutcome, strictEntries, hargs, strictJsonValue, Except.map,
    uncertainEntries]

/-- Replays of the same request have the same uncertain outcome. -/
theorem storedDict_uncertain {c c' : OuterRequest} (hsame : SameRequest c c')
    (hcall : c.outerToolCallId = c'.outerToolCallId) :
    ∃ doc, storedDict (uncertainOuterCallOutcome c.toolName c.args c.outerToolCallId) = .ok doc ∧
      storedDict (uncertainOuterCallOutcome c'.toolName c'.args c'.outerToolCallId) = .ok doc := by
  obtain ⟨htool, es, es', hes, hes', hcanon⟩ := hsame
  refine ⟨_, congrArg (Except.map _) (strictEntries_uncertain hes), ?_⟩
  unfold storedDict
  rw [strictEntries_uncertain hes', ← htool, ← hcall]
  simp only [Except.map, uncertainEntries, Json.canonEntries, hcanon]

/-! ### Steps -/

section Steps

variable {s s' : OuterCalls} {reply : OuterReply}

theorem Replaying.frame {token : OuterToken} {uncertain : PyDict}
    (h : Replaying H s token uncertain) (hrow : s'.call? token.key = s.call? token.key)
    (halone : ∀ t ∈ s'.executing, t.key ≠ token.key) : Replaying H s' token uncertain :=
  ⟨h.request, h.clean, hrow ▸ h.row, halone⟩

/-- Fewer executions and replays, on the same rows. -/
theorem InFlight.sublist (hs : InFlight H s) (hcalls : s'.calls = s.calls)
    (hexecuting : s'.executing.Sublist s.executing) (hsettling : s'.settling.Sublist s.settling) :
    InFlight H s' := by
  have hcall (k : CallIdentity) : s'.call? k = s.call? k := by
    unfold OuterCalls.call?
    rw [hcalls]
  refine ⟨fun t ht => ?_, (hexecuting.map _).nodup hs.distinct, fun p hp => ?_, fun k row hrow => ?_⟩
  · rw [hcall]
    exact hs.executing t (hexecuting.subset ht)
  · have hp := hs.settling p (hsettling.subset hp)
    exact hp.frame (hcall _) fun t ht => hp.alone t (hexecuting.subset ht)
  · exact hs.canonical k row (hcall k ▸ hrow)

/-- A first reservation. -/
theorem InFlight.execute (hdigest : Host.Digests H) {c : OuterRequest} {token : OuterToken}
    {now : ℚ} (hs : InFlight H s) (htoken : c.token H = .ok token)
    (hclean : token.identity = token.key) (hnone : s.call? token.identity = none)
    (hrows : s'.calls.rows = s.calls.rows ++ [token.stripped.dispatchedCall now])
    (hexecuting : s'.executing = s.executing ++ [token]) (hsettling : s'.settling = s.settling) :
    InFlight H s' := by
  have hfind (k : CallIdentity) : s'.call? k = if token.identity = k then
      some (token.stripped.dispatchedCall now) else s.call? k :=
    Table.find?_of_rows_append hrows k
  have hprint : strip token.requestFingerprint = token.requestFingerprint := by
    obtain ⟨es, -, rfl⟩ := token_eq_ok htoken
    exact hdigest.hexadecimal _
  -- A call in flight has a row, so it is not this one.
  have hother {k : CallIdentity} (hk : ∃ row, s.call? k = some row) : token.identity ≠ k := by
    rintro rfl
    obtain ⟨row, hrow⟩ := hk
    exact absurd (hnone.symm.trans hrow) (by simp)
  have hkept {k : CallIdentity} (hk : ∃ row, s.call? k = some row) : s'.call? k = s.call? k := by
    rw [hfind, if_neg (hother hk)]
  have hrow_executing (t : OuterToken) (ht : t ∈ s.executing) : ∃ row, s.call? t.key = some row := by
    obtain ⟨row, hrow, -⟩ := hs.executing t ht
    exact ⟨row, hrow⟩
  refine ⟨fun t ht => ?_, ?_, fun p hp => ?_, fun k row hrow => ?_⟩
  · rw [hexecuting, List.mem_append, List.mem_singleton] at ht
    rcases ht with ht | rfl
    · rw [hkept (hrow_executing t ht)]
      exact hs.executing t ht
    · rw [hfind, if_pos hclean]
      exact ⟨_, rfl, hprint, rfl⟩
  · rw [hexecuting, List.map_append, List.map_singleton, List.nodup_append]
    refine ⟨hs.distinct, List.nodup_singleton _, fun k hk k' hk' => ?_⟩
    obtain ⟨t, ht, rfl⟩ := List.mem_map.mp hk
    obtain rfl := List.mem_singleton.mp hk'
    rw [← hclean]
    exact (hother (hrow_executing t ht)).symm
  · rw [hsettling] at hp
    have hp := hs.settling p hp
    obtain ⟨row, hrow, -⟩ := hp.row
    refine hp.frame (hkept ⟨row, hrow⟩) fun t ht => ?_
    rw [hexecuting, List.mem_append, List.mem_singleton] at ht
    rcases ht with ht | rfl
    · exact hp.alone t ht
    · rw [← hclean]
      exact hother ⟨row, hrow⟩
  · rw [hfind] at hrow
    split at hrow
    · obtain rfl := Option.some.inj hrow
      rfl
    · exact hs.canonical k row hrow

/-- A replay that finds no outcome. -/
theorem InFlight.openReplay (hdigest : Host.Digests H) {c : OuterRequest} {token : OuterToken}
    {row : OuterToolCall} (hs : InFlight H s) (htoken : c.token H = .ok token)
    (hclean : token.identity = token.key) (halone : ∀ t ∈ s.executing, t.key ≠ token.key)
    (hrow : s.call? token.identity = some row) (hbinds : token.Binds row)
    (hopen : row.state.terminal = false) :
    InFlight H { s with settling := s.settling ++
      [(token, uncertainOuterCallOutcome c.toolName c.args c.outerToolCallId)] } := by
  have hprint : strip token.requestFingerprint = token.requestFingerprint := by
    obtain ⟨es, -, rfl⟩ := token_eq_ok htoken
    exact hdigest.hexadecimal _
  refine ⟨hs.executing, hs.distinct, fun p hp => ?_, hs.canonical⟩
  rcases List.mem_append.mp hp with hp | hp
  · have hp := hs.settling p hp
    exact hp.frame rfl hp.alone
  · obtain rfl := List.mem_singleton.mp hp
    exact ⟨⟨c, htoken, rfl⟩, hclean, ⟨row, hclean ▸ hrow, hbinds.2.trans hprint, .inl hopen⟩, halone⟩

/-- A reservation keeps what is in flight consistent, and shows what is on record. -/
theorem InFlight.reserve (hdigest : Host.Digests H) {c : OuterRequest} {hasRuntime : Bool} {now : ℚ}
    (hs : InFlight H s) (hu : Undisturbed H s (.reserve c hasRuntime now))
    (h : reserveProviderOuterCall H c hasRuntime now s = (reply, s')) :
    InFlight H s' ∧ ∀ x, shownResult P (.reserve c hasRuntime now, reply) = some x →
      x.OnRecord s' := by
  rcases reserve_cases h with ⟨e, rfl, rfl⟩ |
    ⟨token, htoken, hchecked, ⟨rfl, hruntime, hnone, hrows, hexecuting, hsettling⟩ |
      ⟨row, hrow, hbinds, ⟨hterminal, rfl, rfl⟩ | ⟨hopen, rfl, rfl⟩⟩⟩
  · exact ⟨hs, fun x hx => absurd hx (by simp [shownResult])⟩
  · have hopens : s.Opens token hasRuntime := by
      unfold OuterCalls.Opens
      rw [hnone]
      exact hruntime
    obtain ⟨hclean, -⟩ := hu token htoken hchecked hopens
    exact ⟨hs.execute hdigest htoken hclean hnone hrows hexecuting hsettling,
      fun x hx => absurd hx (by simp [shownResult])⟩
  · refine ⟨hs, fun x hx => ?_⟩
    obtain rfl := Option.some.inj hx
    exact ⟨row, hrow, rfl, hterminal, hs.canonical _ row hrow⟩
  · have hopens : s.Opens token hasRuntime := by
      unfold OuterCalls.Opens
      rw [hrow]
      exact ⟨hopen, hbinds⟩
    obtain ⟨hclean, halone⟩ := hu token htoken hchecked hopens
    exact ⟨hs.openReplay hdigest htoken hclean halone hrow hbinds hopen,
      fun x hx => absurd hx (by simp [shownResult])⟩

/-- The uncertain outcome of a replay in flight can be stored. -/
theorem Replaying.stored {token : OuterToken} {uncertain : PyDict}
    (h : Replaying H s token uncertain) : ∃ doc, storedDict uncertain = .ok doc := by
  obtain ⟨c, hc, rfl⟩ := h.request
  obtain ⟨es, hes, -⟩ := token_eq_ok hc
  obtain ⟨doc, hdoc, -⟩ := storedDict_uncertain (c := c) ⟨rfl, es, es, hes, hes, rfl⟩ rfl
  exact ⟨doc, hdoc⟩

/-- Two replays of one row have the same uncertain outcome. -/
theorem Replaying.storedDict_eq (hdigest : Host.Digests H) {token token' : OuterToken}
    {uncertain uncertain' : PyDict} (h : Replaying H s token uncertain)
    (h' : Replaying H s token' uncertain') (hkey : token.key = token'.key) :
    storedDict uncertain = storedDict uncertain' := by
  obtain ⟨c, hc, rfl⟩ := h.request
  obtain ⟨c', hc', rfl⟩ := h'.request
  obtain ⟨row, hrow, hprint, -⟩ := h.row
  obtain ⟨row', hrow', hprint', -⟩ := h'.row
  obtain rfl := Option.some.inj ((hkey ▸ hrow).symm.trans hrow')
  have hsame := (sameRequest_iff hdigest hc hc').mp (hprint.symm.trans hprint')
  have hcall : c.outerToolCallId = c'.outerToolCallId := by
    obtain ⟨es, -, rfl⟩ := token_eq_ok hc
    obtain ⟨es', -, rfl⟩ := token_eq_ok hc'
    simp only [OuterToken.key, Prod.mk.injEq] at hkey
    exact hkey.2.2
  obtain ⟨doc, hdoc, hdoc'⟩ := storedDict_uncertain hsame hcall
  rw [hdoc, hdoc']

/-- The second transaction of a replay keeps what is in flight consistent, shows the
uncertain outcome and has it on record. -/
theorem InFlight.settle (hdigest : Host.Digests H) {index : Nat} {now : ℚ} (hs : InFlight H s)
    (h : settleReplay index now s = (reply, s')) :
    InFlight H s' ∧
      (∀ x, shownResult P (.settle index now, reply) = some x → x.OnRecord s') ∧
      ∀ p, s.settling[index]? = some p → reply = .replay p.1 .unknownEffect p.2 ∧
        ShownResult.OnRecord ⟨p.1.identity, .unknownEffect, p.2⟩ s' := by
  rcases settle_cases h with ⟨hnone, rfl, rfl⟩ |
    ⟨token, uncertain, hget, hexecuting, hsettling, hcases⟩
  · refine ⟨hs, fun x hx => absurd hx (by simp [shownResult]), fun p hp => ?_⟩
    exact absurd (hnone.symm.trans hp) (by simp)
  have hreplay : Replaying H s token uncertain := hs.settling _ (List.mem_of_getElem? hget)
  obtain ⟨row, hrow, hprint, hrowState⟩ := hreplay.row
  obtain ⟨doc, hdoc⟩ := hreplay.stored
  rcases hcases with ⟨e, -, -, herror⟩ | ⟨record, rfl, hfinish⟩
  · obtain ⟨record, u, hok⟩ := finishOuterToolCall_of_row .unknownEffect rfl hrow hprint
      hdoc "prior process stopped after durable dispatch" now
    exact absurd (herror.symm.trans hok) (by simp)
  obtain ⟨-, row', hrow', -, hwrite⟩ := finishOuterToolCall_eq_ok hfinish
  obtain rfl := Option.some.inj (hrow.symm.trans hrow')
  have hsub : s'.settling.Sublist s.settling := hsettling ▸ List.eraseIdx_sublist _ _
  rcases hwrite with ⟨hterminal, rfl, hcalls⟩ | ⟨hopen, doc', hdoc', rfl, hcall⟩
  · -- Another replay of the request has settled the row.
    have hrecord : ShownResult.OnRecord ⟨token.identity, .unknownEffect, uncertain⟩ s' := by
      rcases hrowState with hopen | ⟨hstate, hstored⟩
      · exact absurd (hopen.symm.trans hterminal) (by simp)
      · refine ⟨record, ?_, hstate, hterminal, hstored⟩
        unfold OuterCalls.call?
        rw [hcalls, hreplay.clean]
        exact hrow
    refine ⟨hs.sublist hcalls (hexecuting ▸ List.Sublist.refl _) hsub, fun x hx => ?_, fun p hp => ?_⟩
    · obtain rfl := Option.some.inj hx
      exact hrecord
    · obtain rfl := Option.some.inj (hget.symm.trans hp)
      exact ⟨rfl, hrecord⟩
  · obtain rfl := Except.ok.inj (hdoc.symm.trans hdoc')
    have hcall (k : CallIdentity) : s'.call? k = if k = token.key then
        some (finishChange .unknownEffect doc
          (clip "prior process stopped after durable dispatch" 4000) now row) else s.call? k :=
      hcall k
    have hrecord : ShownResult.OnRecord ⟨token.identity, .unknownEffect, uncertain⟩ s' :=
      ⟨_, by rw [hcall, if_pos hreplay.clean], rfl, rfl, hdoc⟩
    refine ⟨⟨fun t ht => ?_, ?_, fun p hp => ?_, fun k row' hrow' => ?_⟩, fun x hx => ?_,
      fun p hp => ?_⟩
    · rw [hexecuting] at ht
      rw [hcall, if_neg (hreplay.alone t ht)]
      exact hs.executing t ht
    · rw [hexecuting]
      exact hs.distinct
    · have hp := hs.settling p (hsub.subset hp)
      by_cases hkey : p.1.key = token.key
      · refine ⟨hp.request, hp.clean, ?_, hexecuting ▸ hp.alone⟩
        obtain ⟨old, hold, hprint', -⟩ := hp.row
        obtain rfl := Option.some.inj ((hkey ▸ hold).symm.trans hrow)
        refine ⟨finishChange .unknownEffect doc
          (clip "prior process stopped after durable dispatch" 4000) now old, ?_, hprint',
          .inr ⟨rfl, ?_⟩⟩
        · rw [hcall, if_pos hkey]
        · rw [hp.storedDict_eq hdigest hreplay hkey]
          exact hdoc
      · exact hp.frame (by rw [hcall, if_neg hkey]) (hexecuting ▸ hp.alone)
    · rw [hcall] at hrow'
      split at hrow'
      · obtain rfl := Option.some.inj hrow'
        exact storedDict_stored hdoc
      · exact hs.canonical k row' hrow'
    · obtain rfl := Option.some.inj hx
      exact hrecord
    · obtain rfl := Option.some.inj (hget.symm.trans hp)
      exact ⟨rfl, hrecord⟩

/-- The other executions have other keys. -/
theorem key_ne_of_mem_eraseIdx {executing : List OuterToken} {index : Nat} {t t' : OuterToken}
    (hdistinct : (executing.map OuterToken.key).Nodup) (ht : executing[index]? = some t)
    (ht' : t' ∈ executing.eraseIdx index) : t'.key ≠ t.key := by
  obtain ⟨hlt, rfl⟩ := List.getElem?_eq_some_iff.mp ht
  have hperm := (List.getElem_cons_eraseIdx_perm hlt).map OuterToken.key
  have hnodup := hperm.nodup_iff.mpr hdistinct
  rw [List.map_cons, List.nodup_cons] at hnodup
  exact fun heq => hnodup.1 (heq ▸ List.mem_map_of_mem ht')

/-- The end of an execution keeps what is in flight consistent, and records its outcome,
if that is strict JSON. -/
theorem InFlight.finish {index : Nat} {outcome : PyDict} {now : ℚ} (hs : InFlight H s)
    (h : finishProviderOuterCall P index outcome now s = (reply, s')) :
    InFlight H s' ∧
      (∀ x, shownResult P (.finish index outcome now, reply) = some x → x.OnRecord s') ∧
      ∀ t doc, s.executing[index]? = some t → storedDict outcome = .ok doc →
        ∃ record, reply = .recorded record ∧ s'.call? t.key = some record ∧
          record.state = terminalState P outcome ∧ record.outcome = doc := by
  rcases finish_cases h with ⟨hnone, rfl, rfl⟩ | ⟨token, hget, hexecuting, hsettling, hcases⟩
  · refine ⟨hs, fun x hx => absurd hx (by simp [shownResult]), fun t doc ht => ?_⟩
    exact absurd (hnone.symm.trans ht) (by simp)
  obtain ⟨row, hrow, hprint, hopen⟩ := hs.executing token (List.mem_of_getElem? hget)
  have hsub : s'.executing.Sublist s.executing := hexecuting ▸ List.eraseIdx_sublist _ _
  have hstate : (terminalState P outcome).terminal = true := by
    unfold terminalState
    split_ifs <;> rfl
  rcases hcases with ⟨e, rfl, hcalls, herror⟩ | ⟨record, rfl, hfinish⟩
  · refine ⟨hs.sublist hcalls hsub (hsettling ▸ List.Sublist.refl _),
      fun x hx => absurd hx (by simp [shownResult]), fun t doc _ hdoc => ?_⟩
    obtain ⟨record, u, hok⟩ := finishOuterToolCall_of_row _ hstate hrow hprint hdoc
      (outcomeError P outcome) now
    exact absurd (herror.symm.trans hok) (by simp)
  obtain ⟨-, row', hrow', -, hwrite⟩ := finishOuterToolCall_eq_ok hfinish
  obtain rfl := Option.some.inj (hrow.symm.trans hrow')
  rcases hwrite with ⟨hterminal, -, -⟩ | ⟨-, doc, hdoc, rfl, hcall⟩
  · exact absurd (hopen.symm.trans hterminal) (by simp)
  have hcall (k : CallIdentity) : s'.call? k = if k = token.key then
      some (finishChange (terminalState P outcome) doc (clip (outcomeError P outcome) 4000) now row)
      else s.call? k :=
    hcall k
  have hkey := Table.key_of_find? (t := s.calls) hrow
  refine ⟨⟨fun t ht => ?_, (hsub.map _).nodup hs.distinct, fun p hp => ?_, fun k row' hrow' => ?_⟩,
    fun x hx => ?_, fun t doc' ht hdoc' => ?_⟩
  · have hne : t.key ≠ token.key := by
      rw [hexecuting] at ht
      exact key_ne_of_mem_eraseIdx hs.distinct hget ht
    rw [hcall, if_neg hne]
    exact hs.executing t (hsub.subset ht)
  · rw [hsettling] at hp
    have hp := hs.settling p hp
    have hne := hp.alone token (List.mem_of_getElem? hget)
    exact hp.frame (by rw [hcall, if_neg hne.symm]) fun t ht => hp.alone t (hsub.subset ht)
  · rw [hcall] at hrow'
    split at hrow'
    · obtain rfl := Option.some.inj hrow'
      exact storedDict_stored hdoc
    · exact hs.canonical k row' hrow'
  · obtain rfl := Option.some.inj hx
    exact ⟨_, by rw [hcall]; exact if_pos hkey, rfl, hstate, hdoc⟩
  · obtain rfl := Option.some.inj (hget.symm.trans ht)
    obtain rfl := Except.ok.inj (hdoc.symm.trans hdoc')
    exact ⟨_, rfl, by rw [hcall, if_pos rfl], rfl, rfl⟩

/-- A step keeps what is in flight consistent, and shows what is on record. -/
theorem InFlight.step (hdigest : Host.Digests H) {l : OuterStep} (hs : InFlight H s)
    (hu : Undisturbed H s l) (h : OuterCalls.step H P l s = (reply, s')) :
    InFlight H s' ∧ ∀ x, shownResult P (l, reply) = some x → x.OnRecord s' := by
  cases l with
  | reserve c hasRuntime now => exact hs.reserve hdigest hu h
  | settle index now =>
      obtain ⟨hs', hshown, -⟩ := hs.settle (P := P) hdigest h
      exact ⟨hs', hshown⟩
  | finish index outcome now =>
      obtain ⟨hs', hshown, -⟩ := hs.finish h
      exact ⟨hs', hshown⟩
  | abandon index =>
      obtain ⟨rfl, rfl⟩ := Prod.mk.inj h
      exact ⟨hs.sublist rfl (List.eraseIdx_sublist _ _) (List.Sublist.refl _),
        fun x hx => absurd hx (by simp [shownResult])⟩
  | stop =>
      obtain ⟨rfl, rfl⟩ := Prod.mk.inj h
      exact ⟨hs.sublist rfl (List.nil_sublist _) (List.nil_sublist _),
        fun x hx => absurd hx (by simp [shownResult])⟩

end Steps

/-! ## 5.  At most once, and the same result for good -/

/-- The identity a request is reserved under. -/
def OuterRequest.identity (c : OuterRequest) : CallIdentity :=
  (strip c.chatId, strip c.runId, strip c.outerToolCallId)

/-- What is promised of a call after a history. -/
structure DispatchedOnce (H : Host) (P : Interpreter) (h : OuterHistory) (s : OuterCalls) : Prop where
  once : ∀ k, executions k h ≤ 1
  /-- A terminal row stays as it is, whatever happens next. -/
  kept : ∀ k row, s.call? k = some row → row.state.terminal = true →
    ∀ C later s', (outerCalls H P).Extends C h s later s' → s'.call? k = some row
  /-- Every result the model was shown is the recorded one. -/
  shown : ∀ e ∈ h, ∀ x, shownResult P e = some x → x.OnRecord s
  /-- The outcome of an execution in flight can be recorded. -/
  recorded : ∀ index t outcome doc now, s.executing[index]? = some t →
    storedDict outcome = .ok doc → ∃ record s',
      OuterCalls.step H P (.finish index outcome now) s = (.recorded record, s') ∧
        s'.call? t.key = some record ∧ record.state = terminalState P outcome ∧
        record.outcome = doc
  /-- A repeated request replays the recorded outcome, or is about to settle its row. -/
  repeated : ∀ c c' hasRuntime hasRuntime' now now' token,
    (.reserve c hasRuntime now, .execute token) ∈ h → c'.identity = c.identity →
      SameRequest c' c → ∃ row token', s.call? c.identity = some row ∧ c'.token H = .ok token' ∧
        (row.state.terminal = true ∧
            OuterCalls.step H P (.reserve c' hasRuntime' now') s =
              (.replay token' row.state (entriesToPy row.outcome), s) ∨
          row.state = .dispatched ∧
            OuterCalls.step H P (.reserve c' hasRuntime' now') s =
              (.settling token', { s with
                settling := s.settling ++
                  [(token', uncertainOuterCallOutcome c'.toolName c'.args c'.outerToolCallId)] }))
  /-- A replay that settles its row shows the uncertain outcome, and that is recorded. -/
  settled : ∀ index p now, s.settling[index]? = some p → ∃ s',
    OuterCalls.step H P (.settle index now) s = (.replay p.1 .unknownEffect p.2, s') ∧
      ShownResult.OnRecord ⟨p.1.identity, .unknownEffect, p.2⟩ s'
  /-- Another request under the identity of a call is refused. -/
  refused : ∀ c c' hasRuntime hasRuntime' now now' token,
    (.reserve c hasRuntime now, .execute token) ∈ h → c'.identity = c.identity →
      ¬ SameRequest c' c → ∃ e, OuterCalls.step H P (.reserve c' hasRuntime' now') s = (.raised e, s)

/-- What the checks of a token look at. -/
theorem OuterToken.checked_congr {t t' : OuterToken} (h : t.stripped = t'.stripped)
    (hchecked : t.checked = .ok t.stripped) : t'.checked = .ok t'.stripped := by
  simp only [OuterToken.stripped, OuterToken.mk.injEq] at h
  obtain ⟨hchat, hrun, hcall, htool, hprint⟩ := h
  rw [OuterToken.checked, chatIdValue, boundedText, boundedText, boundedText, boundedText] at *
  rw [hchat, hrun, hcall, htool, hprint] at hchecked
  rw [hchecked, OuterToken.stripped, hchat, hrun, hcall, htool, hprint]
  rfl

theorem identity_token {c : OuterRequest} {token : OuterToken} (h : c.token H = .ok token) :
    token.identity = c.identity := by
  obtain ⟨es, -, rfl⟩ := token_eq_ok h
  rfl

/-- A repeated reservation of a call that was told to execute. -/
theorem repeated_of_run (hdigest : Host.Digests H) {h : OuterHistory} {s : OuterCalls}
    (hrun : (outerCalls H P).Run h s) {c c' : OuterRequest} {hasRuntime : Bool} {now : ℚ}
    {token : OuterToken} (hmem : (OuterStep.reserve c hasRuntime now, OuterReply.execute token) ∈ h)
    (hidentity : c'.identity = c.identity) (hsame : SameRequest c' c) (hasRuntime' : Bool)
    (now' : ℚ) :
    ∃ row token', s.call? c.identity = some row ∧ c'.token H = .ok token' ∧
      reserveOuterToolCall token' hasRuntime' now' s.calls = .ok ((row, true), s.calls) := by
  obtain ⟨htoken, hchecked, row, hrow, hbinds⟩ := row_of_execute hrun hmem
  obtain ⟨htool, es, es', hes, hes', hcanon⟩ := hsame
  have htoken' : c'.token H = .ok ⟨c'.chatId, c'.runId, c'.outerToolCallId, c'.toolName,
      H.sha256 (Json.dumps (requestDocument c'.toolName (.obj es)))⟩ := by
    unfold OuterRequest.token
    rw [requestFingerprint_eq_ok.mpr ⟨es, hes, rfl⟩]
    rfl
  obtain ⟨fs, hfs, rfl⟩ := token_eq_ok htoken
  obtain rfl := Except.ok.inj (hes'.symm.trans hfs)
  have hprint := (requestFingerprint_inj hdigest.injective).mpr ⟨htool, hcanon⟩
  simp only [OuterRequest.identity, Prod.mk.injEq] at hidentity
  obtain ⟨hchat, hrunId, hcall⟩ := hidentity
  refine ⟨row, _, hrow, htoken', ?_⟩
  rw [hprint, htool]
  have hstripped : (⟨c'.chatId, c'.runId, c'.outerToolCallId, c.toolName,
      H.sha256 (Json.dumps (requestDocument c.toolName (.obj es')))⟩ : OuterToken).stripped =
      (⟨c.chatId, c.runId, c.outerToolCallId, c.toolName,
        H.sha256 (Json.dumps (requestDocument c.toolName (.obj es')))⟩ : OuterToken).stripped := by
    simp only [OuterToken.stripped, hchat, hrunId, hcall]
  refine (reserveOuterToolCall_of_row (OuterToken.checked_congr hstripped.symm hchecked) ?_
    hasRuntime' now').1 ?_
  · rw [OuterToken.identity, hstripped]
    exact hrow
  · rw [OuterToken.Binds, hstripped]
    exact hbinds

/-- Another request under the identity of a call. -/
theorem refused_of_run (hdigest : Host.Digests H) {h : OuterHistory} {s : OuterCalls}
    (hrun : (outerCalls H P).Run h s) {c c' : OuterRequest} {hasRuntime : Bool} {now : ℚ}
    {token : OuterToken} (hmem : (OuterStep.reserve c hasRuntime now, OuterReply.execute token) ∈ h)
    (hidentity : c'.identity = c.identity) (hother : ¬ SameRequest c' c) (hasRuntime' : Bool)
    (now' : ℚ) :
    ∃ e, reserveProviderOuterCall H c' hasRuntime' now' s = (.raised e, s) := by
  obtain ⟨htoken, -, row, hrow, hbinds⟩ := row_of_execute hrun hmem
  generalize hstep : reserveProviderOuterCall H c' hasRuntime' now' s = p
  obtain ⟨reply, s'⟩ := p
  rcases reserve_cases hstep with ⟨e, rfl, rfl⟩ | ⟨token', htoken', -, hcases⟩
  · exact ⟨e, rfl⟩
  have hrow' : s.call? token'.identity = some row := by
    rw [identity_token htoken', hidentity, ← identity_token htoken]
    exact hrow
  rcases hcases with ⟨-, -, hnone, -⟩ | ⟨row', hfind, hbinds', -⟩
  · exact absurd (hnone.symm.trans hrow') (by simp)
  · obtain rfl := Option.some.inj (hrow'.symm.trans hfind)
    have hprint : token'.requestFingerprint = token.requestFingerprint := by
      have hstrip : strip token'.requestFingerprint = strip token.requestFingerprint :=
        hbinds'.2.symm.trans hbinds.2
      obtain ⟨es, -, rfl⟩ := token_eq_ok htoken
      obtain ⟨es', -, rfl⟩ := token_eq_ok htoken'
      exact (hdigest.hexadecimal _).symm.trans (hstrip.trans (hdigest.hexadecimal _))
    exact absurd ((sameRequest_iff hdigest htoken' htoken).mp hprint) hother

theorem inFlight_of_run (hdigest : Host.Digests H) {h : OuterHistory} {s : OuterCalls}
    (hrun : (outerCalls H P).RunWhere (fun _ => Undisturbed H) h s) :
    InFlight H s ∧ ∀ e ∈ h, ∀ x, shownResult P e = some x → x.OnRecord s := by
  refine hrun.invariant (I := fun h s => InFlight H s ∧
    ∀ e ∈ h, ∀ x, shownResult P e = some x → x.OnRecord s) ?_ ?_
  · refine ⟨⟨fun t ht => absurd ht (by simp [outerCalls, OuterCalls.empty]), List.nodup_nil,
      fun p hp => absurd hp (by simp [outerCalls, OuterCalls.empty]), fun k row hrow => ?_⟩,
      fun e he => absurd he (by simp)⟩
    exact absurd hrow (by simp [outerCalls, OuterCalls.empty, OuterCalls.call?])
  · intro h s l r s' _ ⟨hs, hshown⟩ hu hstep
    obtain ⟨hs', hnew⟩ := hs.step hdigest hu hstep
    refine ⟨hs', fun e he x hx => ?_⟩
    rcases List.mem_cons.mp he with rfl | he
    · exact hnew x hx
    · exact (hshown e he x hx).step fun k => (effect_of_step hstep k).1

/-- **A provider call is dispatched at most once, and every result that is shown for it
is its recorded outcome, in every run in which no reservation disturbs an execution.** -/
theorem provider_call_dispatched_once (hdigest : Host.Digests H) {h : OuterHistory} {s : OuterCalls}
    (hrun : (outerCalls H P).RunWhere (fun _ => Undisturbed H) h s) : DispatchedOnce H P h s := by
  obtain ⟨hs, hshown⟩ := inFlight_of_run hdigest hrun
  refine ⟨fun k => ?_, ?_, hshown, ?_, ?_, ?_, ?_⟩
  · rw [executions_of_run hrun.run k]
    split <;> decide
  · intro k row hrow hterminal C later s' hext
    exact terminal_kept hrow hterminal hext
  · intro index t outcome doc now ht hdoc
    generalize hstep : OuterCalls.step H P (.finish index outcome now) s = p
    obtain ⟨reply, s'⟩ := p
    obtain ⟨-, -, hrecorded⟩ := hs.finish hstep
    obtain ⟨record, rfl, hrow, hstate, houtcome⟩ := hrecorded t doc ht hdoc
    exact ⟨record, s', rfl, hrow, hstate, houtcome⟩
  · intro c c' hasRuntime hasRuntime' now now' token hmem hidentity hsame
    obtain ⟨row, token', hrow, htoken', hreserve⟩ :=
      repeated_of_run hdigest hrun.run hmem hidentity hsame hasRuntime' now'
    refine ⟨row, token', hrow, htoken', ?_⟩
    show _ ∧ reserveProviderOuterCall H c' hasRuntime' now' s = _ ∨
      _ ∧ reserveProviderOuterCall H c' hasRuntime' now' s = _
    unfold reserveProviderOuterCall
    rw [htoken']
    dsimp only
    rw [hreserve]
    dsimp only
    cases hterminal : row.state.terminal with
    | true => exact .inl ⟨rfl, if_pos rfl⟩
    | false =>
        refine .inr ⟨?_, if_neg (by simp)⟩
        cases hstate : row.state <;> simp_all [OuterCallState.terminal]
  · intro index p now hget
    generalize hstep : OuterCalls.step H P (.settle index now) s = q
    obtain ⟨reply, s'⟩ := q
    obtain ⟨-, -, hsettled⟩ := hs.settle (P := P) hdigest hstep
    obtain ⟨rfl, hrecord⟩ := hsettled p hget
    exact ⟨s', rfl, hrecord⟩
  · intro c c' hasRuntime hasRuntime' now now' token hmem hidentity hother
    exact refused_of_run hdigest hrun.run hmem hidentity hother hasRuntime' now'

/-! ### Concrete runs -/

/-- A host whose digest frames the digested text. -/
def framedHost : Host := { Host.plain with sha256 := fun t => String.ofList ('x' :: t ++ ['x']) }

theorem digests_framedHost : Host.Digests framedHost := by
  constructor
  · intro t t' h
    have h := String.ofList_injective h
    simpa using h
  · intro t
    have hx : isSpace 'x' = false := by decide
    show strip (String.ofList _) = String.ofList _
    rw [strip_eq, String.toList_ofList, stripChars, List.cons_append, List.dropWhile_cons,
      if_neg (by simp [hx]), ← List.cons_append, List.rdropWhile_concat_neg _ _ _ (by simp [hx])]

/-- An interpreter that is asked for nothing. -/
def quietInterpreter : Interpreter :=
  ⟨fun _ => "", id, fun _ => none, id, fun _ => none, fun _ => .ok ""⟩

/-- A call without arguments. -/
def plainRequest : OuterRequest := ⟨"ipython", [], "chat", "run", "call"⟩

/-- A request with stripped identifiers disturbs nothing while no execution is in flight. -/
theorem undisturbed_of_idle {s : OuterCalls} {c : OuterRequest} (hasRuntime : Bool) (now : ℚ)
    (hclean : c.identity = (c.chatId, c.runId, c.outerToolCallId)) (hidle : s.executing = []) :
    Undisturbed H s (.reserve c hasRuntime now) := by
  intro token htoken _ _
  constructor
  · rw [identity_token htoken, hclean]
    obtain ⟨es, -, rfl⟩ := token_eq_ok htoken
    rfl
  · rw [hidle]
    exact fun t ht => absurd ht (by simp)

theorem identity_plainRequest :
    plainRequest.identity = (plainRequest.chatId, plainRequest.runId, plainRequest.outerToolCallId) := by
  unfold OuterRequest.identity plainRequest
  rw [strip_of_forall (by simp [isSpace]), strip_of_forall (by simp [isSpace]),
    strip_of_forall (by simp [isSpace])]

/-- A call, a process stop, and a replay that settles the row. -/
theorem provider_call_dispatched_once_stopped :
    ∃ h s, (outerCalls framedHost quietInterpreter).RunWhere (fun _ => Undisturbed framedHost) h s ∧
      DispatchedOnce framedHost quietInterpreter h s ∧ h.length = 3 := by
  have hstart : (outerCalls framedHost quietInterpreter).RunWhere
      (fun _ => Undisturbed framedHost) [] OuterCalls.empty := .start
  have hcall := Machine.RunWhere.step hstart
    (undisturbed_of_idle true 0 identity_plainRequest rfl) Prod.mk.eta.symm
  have hidle := Machine.RunWhere.step hcall
    (show Undisturbed framedHost _ .stop from trivial) Prod.mk.eta.symm
  have hrun := Machine.RunWhere.step hidle
    (undisturbed_of_idle true 2 identity_plainRequest rfl) Prod.mk.eta.symm
  exact ⟨_, _, hrun, provider_call_dispatched_once digests_framedHost hrun, rfl⟩

/-- The calls of a run, and the results it has shown, newest first. -/
def shownStates (ls : List OuterStep) :
    List (CallIdentity × OuterCallState) × List (CallIdentity × OuterCallState) :=
  let p := (outerCalls framedHost quietInterpreter).exec ([], OuterCalls.empty) ls
  (p.2.calls.rows.map fun r => (r.key, r.state),
    (p.1.filterMap (shownResult quietInterpreter)).map fun x => (x.identity, x.state))

/-- A replay of a call in flight shows an uncertain outcome although the outcome of the
execution is recorded before, and an execution shows its outcome although the uncertain
one is recorded before. -/
theorem replay_of_call_in_flight :
    shownStates [.reserve plainRequest true 0, .reserve plainRequest true 1,
        .finish 0 [("ok", .bool true)] 2, .settle 0 3] =
      ([(("chat", "run", "call"), .succeeded)],
        [(("chat", "run", "call"), .unknownEffect), (("chat", "run", "call"), .succeeded)]) ∧
    shownStates [.reserve plainRequest true 0, .reserve plainRequest true 1, .settle 0 2,
        .finish 0 [("ok", .bool true)] 3, .reserve plainRequest true 4] =
      ([(("chat", "run", "call"), .unknownEffect)],
        [(("chat", "run", "call"), .unknownEffect), (("chat", "run", "call"), .succeeded),
          (("chat", "run", "call"), .unknownEffect)]) :=
  ⟨by decide +kernel, by decide +kernel⟩

end SessionRuntime
end VariantOne
