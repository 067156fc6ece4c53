import Mathlib.Algebra.Order.BigOperators.Group.List
import VariantOne.Goals.Effects

/-!
# What an effect dispatches

An effect moves forward only, and the row says so: a step of the repository adds a planned effect, or
moves each effect by at most one allowed transition (`RowsStep`).  A handler begins its action after it
has marked the effect, and it marks once.  So an action is begun once when a mark is a move: the second
handler to mark a dispatched effect with the same response is handed the row as if it had moved it, and
begins the action again.

`effects_dispatched_once` is the result for runs in which no mark is a replay, and `kernel_started_twice` a
run with one.  The invariant `Sound` ties what has been begun to the marks of the history, and `Licensed`
is what a handler knows between its mark and its action.
-/

namespace VariantOne
namespace Goals

/-! ## 1.  What a step does to the effects -/

/-- An effect after another of the same identity: the same request, at most one transition later. -/
structure After (e e' : EffectRecord) : Prop where
  effectId : e'.effectId = e.effectId
  goalId : e'.goalId = e.goalId
  key : e'.idempotencyKey = e.idempotencyKey
  status : e'.status = e.status ∨ e'.status ∈ e.status.allowed

theorem After.refl (e : EffectRecord) : After e e := ⟨rfl, rfl, rfl, .inl rfl⟩

/-- The goal and the key of an effect. -/
def EffectRecord.slot (e : EffectRecord) : String × String := (e.goalId, e.idempotencyKey)

/-- **What a step does to the rows of effects.** -/
inductive RowsStep (s s' : GoalStore) : Prop
  | moved (f : EffectRecord → EffectRecord) (hf : ∀ e ∈ s.effects.rows, After e (f e))
      (hrows : s'.effects.rows = s.effects.rows.map f)
  | added (e : EffectRecord) (hstatus : e.status = .planned)
      (hkey : e.slot ∉ s.effects.rows.map EffectRecord.slot)
      (hrows : s'.effects.rows = s.effects.rows ++ [e])

theorem RowsStep.same {s s' : GoalStore} (h : s'.effects = s.effects) : RowsStep s s' :=
  .moved id (fun e _ => .refl e) (by rw [h, List.map_id])

/-- No transition leads back to planned. -/
theorem not_planned_allowed (status : EffectStatus) : EffectStatus.planned ∉ status.allowed := by
  cases status <;> decide

/-- Only a planned effect can be dispatched. -/
theorem planned_of_dispatched_allowed {status : EffectStatus}
    (h : EffectStatus.dispatched ∈ status.allowed) : status = .planned := by
  cases status <;> first | rfl | exact absurd h (by decide)

section Transactions

variable {s s' : GoalStore}

theorem requireGoal_ok {goalId : String} {goal : GoalRow}
    (h : (requireGoal goalId).run s = .ok (goal, s')) : goal.goalId = goalId ∧ s = s' := by
  unfold requireGoal at h
  rw [Txn.run_read_bind] at h
  cases hfind : s.goals.find? goalId with
  | none =>
      rw [hfind] at h
      cases h
  | some g =>
      rw [hfind] at h
      obtain ⟨rfl, rfl⟩ := Txn.run_pure_eq_ok.mp h
      exact ⟨Table.key_of_find? hfind, rfl⟩

theorem requireStep_ok {goalId stepId : String} {step : StepRow}
    (h : (requireStep goalId stepId).run s = .ok (step, s')) : s = s' := by
  unfold requireStep at h
  rw [Txn.run_read_bind] at h
  cases hfind : s.steps.find? fun x => x.goalId = goalId && x.stepId = stepId with
  | none =>
      rw [hfind] at h
      cases h
  | some x =>
      rw [hfind] at h
      exact (Txn.run_pure_eq_ok.mp h).2

/-- What `record_effect` replies with: the effect of the key, which it may have added. -/
theorem recordEffect_ok {q : EffectRequest} {draw : BitVec 128} {e : EffectRecord}
    (h : (recordEffect q draw).run s = .ok (e, s')) :
    e ∈ s'.effects.rows ∧ e.goalId = q.goalId ∧
      goalText q.idempotencyKey "effect idempotency_key" true 512 = .ok e.idempotencyKey ∧
      s.events <+: s'.events ∧ s'.started = s.started ∧ RowsStep s s' ∧
      ∀ x ∈ s'.effects.rows, x.status = .dispatched → x ∈ s.effects.rows := by
  unfold recordEffect at h
  obtain ⟨idem, hidem, h⟩ := Txn.run_lift_bind_eq_ok.mp h
  obtain ⟨goal, s₁, hgoal, h⟩ := Txn.run_bind_eq_ok.mp h
  obtain ⟨hgoalId, rfl⟩ := requireGoal_ok hgoal
  obtain ⟨step, s₂, hstep, h⟩ := Txn.run_bind_eq_ok.mp h
  obtain rfl := requireStep_ok hstep
  rw [Txn.run_read_bind] at h
  cases hprior : s.effects.rows.find? fun x => x.goalId = goal.goalId && x.idempotencyKey = idem with
  | some prior =>
      rw [hprior] at h
      unfold replayEffect at h
      obtain ⟨_, h⟩ := Txn.run_ensure_bind_eq_ok.mp h
      obtain ⟨rfl, rfl⟩ := Txn.run_pure_eq_ok.mp h
      have hfound := List.find?_some hprior
      simp only [Bool.and_eq_true, decide_eq_true_eq] at hfound
      exact ⟨List.mem_of_find?_eq_some hprior, hfound.1.trans hgoalId, by rw [hfound.2]; exact hidem,
        List.prefix_refl _, rfl, .same rfl, fun x hx _ => hx⟩
  | none =>
      rw [hprior] at h
      dsimp only at h
      unfold checkVersion at h
      obtain ⟨_, h⟩ := Txn.run_ensure_bind_eq_ok.mp h
      obtain ⟨kind, _, h⟩ := Txn.run_lift_bind_eq_ok.mp h
      obtain ⟨u, s₃, hinsert, h⟩ := Txn.run_bind_eq_ok.mp h
      obtain ⟨u', s₄, hadvance, h⟩ := Txn.run_bind_eq_ok.mp h
      obtain ⟨rfl, rfl⟩ := Txn.run_pure_eq_ok.mp h
      unfold insertEffect at hinsert
      rw [Txn.run_read_bind] at hinsert
      set e : EffectRecord := ⟨newId "effect" draw, goal.goalId, step.stepId, step.attemptCount,
        nextSequence s goal.goalId, kind, .planned, idem, canonical q.request, [], "", ""⟩ with he
      cases hins : s.effects.insert? e with
      | none =>
          rw [hins] at hinsert
          cases hinsert
      | some effects =>
          rw [hins] at hinsert
          obtain ⟨_, rfl⟩ := Prod.mk.inj (Except.ok.inj hinsert)
          obtain ⟨_, rfl⟩ := Prod.mk.inj (Except.ok.inj hadvance)
          have hrows : effects.rows = s.effects.rows ++ [e] := (Table.insert?_eq_some hins).2
          refine ⟨?_, hgoalId, hidem, List.prefix_append _ _, rfl, .added e rfl ?_ hrows, ?_⟩
          · change e ∈ effects.rows
            rw [hrows]
            exact List.mem_append_right _ (List.mem_singleton_self e)
          · intro hmem
            obtain ⟨x, hx, hslot⟩ := List.mem_map.mp hmem
            obtain ⟨hxgoal, hxkey⟩ := Prod.mk.inj hslot
            have hno := List.find?_eq_none.mp hprior x hx
            simp [hxgoal, hxkey, he] at hno
          · intro x hx hstatus
            change x ∈ effects.rows at hx
            rw [hrows] at hx
            refine (List.mem_append.mp hx).resolve_right fun hx => ?_
            rw [List.mem_singleton.mp hx] at hstatus
            cases hstatus

/-- **What `update_effect` does**: it hands out the row as it is, or it moves it. -/
theorem updateEffect_ok {q : EffectUpdate} {e' : EffectRecord}
    (h : (updateEffect q).run s = .ok (e', s')) :
    ∃ e, s.effects.find? q.effectId = some e ∧ s'.started = s.started ∧
      ((s' = s ∧ q.status = e.status ∧ q.SameAs e) ∨
        (q.status ∈ e.status.allowed ∧ (∃ error, s'.effects = (s.updateEffect q error).effects) ∧
          ∃ version, s'.events = s.events ++ [⟨q.effectId, some e.status, q.status, version⟩])) := by
  unfold updateEffect at h
  rw [Txn.run_read_bind] at h
  cases hfind : s.effects.find? q.effectId with
  | none =>
      rw [hfind] at h
      cases h
  | some e =>
      rw [hfind] at h
      obtain ⟨goal, s₁, hgoal, h⟩ := Txn.run_bind_eq_ok.mp h
      obtain ⟨_, rfl⟩ := requireGoal_ok hgoal
      by_cases hstatus : q.status = e.status
      · rw [if_pos hstatus] at h
        unfold repeatUpdate at h
        obtain ⟨hsame, h⟩ := Txn.run_ensure_bind_eq_ok.mp h
        obtain ⟨rfl, rfl⟩ := Txn.run_pure_eq_ok.mp h
        exact ⟨e, rfl, rfl, .inl ⟨rfl, hstatus, hsame⟩⟩
      · rw [if_neg hstatus] at h
        unfold moveEffect checkVersion at h
        obtain ⟨_, h⟩ := Txn.run_ensure_bind_eq_ok.mp h
        obtain ⟨hallowed, h⟩ := Txn.run_ensure_bind_eq_ok.mp h
        obtain ⟨error, _, h⟩ := Txn.run_lift_bind_eq_ok.mp h
        obtain ⟨u, s₂, hupdate, h⟩ := Txn.run_bind_eq_ok.mp h
        obtain ⟨_, rfl⟩ := Prod.mk.inj (Except.ok.inj hupdate)
        obtain ⟨u', s₃, hadvance, h⟩ := Txn.run_bind_eq_ok.mp h
        obtain ⟨_, rfl⟩ := Prod.mk.inj (Except.ok.inj hadvance)
        obtain ⟨_, rfl⟩ := Txn.run_pure_eq_ok.mp h
        have hid : e.effectId = q.effectId := Table.key_of_find? hfind
        refine ⟨e, rfl, rfl, .inr ⟨hallowed, ⟨error, rfl⟩, goal.version + 1, ?_⟩⟩
        rw [← hid]
        rfl

/-- The row of an effect after an update of it. -/
theorem rowsStep_updateEffect {q : EffectUpdate} {e : EffectRecord}
    (hfind : s.effects.find? q.effectId = some e) (hallowed : q.status ∈ e.status.allowed)
    {error : String} (heffects : s'.effects = (s.updateEffect q error).effects) : RowsStep s s' := by
  refine .moved (fun x => if x.effectId = q.effectId then
    { x with status := q.status, response := canonical q.response, receiptId := q.receiptId,
             error := error } else x) (fun x hx => ?_) ?_
  · by_cases hid : x.effectId = q.effectId
    · rw [if_pos hid]
      obtain rfl : x = e := Table.eq_of_mem hx (Table.mem_of_find? hfind)
        (hid.trans (Table.key_of_find? hfind).symm)
      exact ⟨rfl, rfl, rfl, .inr hallowed⟩
    · rw [if_neg hid]
      exact .refl x
  · rw [heffects]
    simp [GoalStore.updateEffect]

end Transactions

/-- What a step begins. -/
def GoalStep.startOf : GoalStep → Option Start
  | .kernelExecute x _ | .launchTurn x _ => some x
  | _ => none

/-- The effect rows after a cancellation. -/
theorem rowsStep_cancelGoal {s s' : GoalStore} {goalId reason : String}
    {goals : Table GoalRow String GoalRow.goalId} {steps : List StepRow} {u : Unit}
    (h : (cancelGoal goalId reason goals steps).run s = .ok (u, s')) :
    RowsStep s s' ∧ s'.events = s.events ∧ s'.started = s.started ∧
      ∀ x ∈ s'.effects.rows, x.status = .dispatched → x ∈ s.effects.rows := by
  obtain ⟨_, rfl⟩ := Prod.mk.inj (Except.ok.inj h)
  refine ⟨.moved (fun e => if e.goalId = goalId && (e.status = .planned || e.status = .dispatched) then
    { e with status := .cancelled, error := reason } else e) (fun e _ => ?_) rfl, rfl, rfl, ?_⟩
  · by_cases hc : (e.goalId = goalId && (e.status = .planned || e.status = .dispatched)) = true
    · rw [if_pos hc]
      refine ⟨rfl, rfl, rfl, .inr ?_⟩
      simp only [Bool.and_eq_true, Bool.or_eq_true, decide_eq_true_eq] at hc
      change EffectStatus.cancelled ∈ e.status.allowed
      rcases hc.2 with hstatus | hstatus <;> rw [hstatus] <;> decide
    · rw [if_neg hc]
      exact .refl e
  · intro x hx hstatus
    obtain ⟨e, he, rfl⟩ := List.mem_map.mp hx
    dsimp only at hstatus ⊢
    split at hstatus
    · cases hstatus
    · rename_i hc
      rw [if_neg hc]
      exact he

/-- The effect was dispatched. -/
def Marked (s : GoalStore) (effectId : String) : Prop :=
  ∃ event ∈ s.events, event.effectId = effectId ∧ event.target = .dispatched

/-- **What a step does to the store**: it adds or moves effects, appends events, and begins what it
begins. -/
structure StoreStep (t : GoalStep) (s s' : GoalStore) : Prop where
  rows : RowsStep s s'
  events : s.events <+: s'.events
  started : s'.started = s.started ++ t.startOf.toList
  /-- What becomes dispatched has its event. -/
  dispatched : ∀ e ∈ s'.effects.rows, e.status = .dispatched → e ∈ s.effects.rows ∨ Marked s' e.effectId

/-- A step that leaves effects, events and what was begun. -/
theorem StoreStep.of_eq {t : GoalStep} {s s' : GoalStore} (ht : t.startOf = none)
    (heffects : s'.effects = s.effects) (hevents : s'.events = s.events)
    (hstarted : s'.started = s.started) : StoreStep t s s' :=
  ⟨.same heffects, hevents ▸ List.prefix_refl _, by rw [hstarted, ht]; simp,
    fun _ he _ => .inl (heffects ▸ he)⟩

theorem listEffects_ok {s s' : GoalStore} {goalId : String} {effects : List EffectRecord}
    (h : (listEffects goalId).run s = .ok (effects, s')) : s = s' := by
  unfold listEffects at h
  obtain ⟨goal, s₁, hgoal, h⟩ := Txn.run_bind_eq_ok.mp h
  obtain ⟨_, rfl⟩ := requireGoal_ok hgoal
  exact (Txn.run_pure_eq_ok.mp h).2

theorem stateSet_ok {s s' : GoalStore} {goalId key : String} {value : Payload} {version : Nat} {u : Unit}
    (h : (stateSet goalId key value version).run s = .ok (u, s')) :
    s'.effects = s.effects ∧ s'.events = s.events ∧ s'.started = s.started := by
  unfold stateSet checkVersion at h
  obtain ⟨clean, _, h⟩ := Txn.run_lift_bind_eq_ok.mp h
  obtain ⟨goal, s₁, hgoal, h⟩ := Txn.run_bind_eq_ok.mp h
  obtain ⟨_, rfl⟩ := requireGoal_ok hgoal
  obtain ⟨_, h⟩ := Txn.run_ensure_bind_eq_ok.mp h
  obtain ⟨_, rfl⟩ := Prod.mk.inj (Except.ok.inj h)
  exact ⟨rfl, rfl, rfl⟩

theorem reserveRun_ok {s s' : GoalStore} {chatId admissionId : String} {readiness : Readiness}
    {r : Option String} (h : (reserveRun chatId admissionId readiness).run s = .ok (r, s')) :
    s'.effects = s.effects ∧ s'.events = s.events ∧ s'.started = s.started := by
  unfold reserveRun at h
  cases readiness with
  | exhausted => cases h
  | busy =>
      obtain ⟨_, rfl⟩ := Txn.run_pure_eq_ok.mp h
      exact ⟨rfl, rfl, rfl⟩
  | idle =>
      dsimp only at h
      rw [Txn.run_read_bind] at h
      cases hget : Dict.get? s.admissions chatId with
      | some _ =>
          rw [hget] at h
          obtain ⟨_, rfl⟩ := Txn.run_pure_eq_ok.mp h
          exact ⟨rfl, rfl, rfl⟩
      | none =>
          rw [hget] at h
          obtain ⟨_, rfl⟩ := Prod.mk.inj (Except.ok.inj h)
          exact ⟨rfl, rfl, rfl⟩

/-- A transaction that raises changes nothing. -/
theorem storeStep_unitOfWork {t : GoalStep} {s s' : GoalStore} {α : Type} {x : GoalTxn α}
    {r : Except GoalError α} (ht : t.startOf = none) (h : x.unitOfWork none s = (r, s'))
    (hok : ∀ a, x.run s = .ok (a, s') → StoreStep t s s') : StoreStep t s s' := by
  cases r with
  | error e =>
      rw [Txn.unitOfWork_error h]
      exact .of_eq ht rfl rfl rfl
  | ok a => exact hok a (Txn.unitOfWork_ok.mp h).1

/-- **Every step of the goal host is a step of the store.** -/
theorem storeStep_perform {t : GoalStep} {s s' : GoalStore} {r : Except GoalError t.Reply}
    (h : perform t s = (r, s')) : StoreStep t s s' := by
  cases t with
  | requireGoal goalId =>
      refine storeStep_unitOfWork rfl h fun a ha => ?_
      obtain ⟨_, rfl⟩ := requireGoal_ok ha
      exact .of_eq rfl rfl rfl rfl
  | recordEffect q draw =>
      refine storeStep_unitOfWork rfl h fun a ha => ?_
      obtain ⟨_, _, _, hevents, hstarted, hrows, hold⟩ := recordEffect_ok ha
      exact ⟨hrows, hevents, by rw [hstarted]; exact (List.append_nil _).symm,
        fun x hx hstatus => .inl (hold x hx hstatus)⟩
  | updateEffect q =>
      refine storeStep_unitOfWork rfl h fun a ha => ?_
      obtain ⟨e, hfind, hstarted, ⟨rfl, _⟩ | ⟨hallowed, ⟨error, heffects⟩, version, hevents⟩⟩ :=
        updateEffect_ok ha
      · exact .of_eq rfl rfl rfl rfl
      · refine ⟨rowsStep_updateEffect hfind hallowed heffects, hevents ▸ List.prefix_append _ _,
          by rw [hstarted]; exact (List.append_nil _).symm, fun x hx hstatus => ?_⟩
        rw [heffects] at hx
        obtain ⟨y, hy, rfl⟩ := List.mem_map.mp hx
        by_cases hid : y.effectId = q.effectId
        · right
          rw [if_pos (decide_eq_true hid)] at hstatus ⊢
          exact ⟨_, hevents ▸ List.mem_append_right _ (List.mem_singleton_self _), hid.symm, hstatus⟩
        · left
          rw [if_neg (by simpa using hid)]
          exact hy
  | listEffects goalId =>
      refine storeStep_unitOfWork rfl h fun a ha => ?_
      obtain rfl := listEffects_ok ha
      exact .of_eq rfl rfl rfl rfl
  | getEffect effectId =>
      refine storeStep_unitOfWork (x := Goals.getEffect effectId) rfl h fun a ha => ?_
      obtain ⟨_, rfl⟩ := Prod.mk.inj (Except.ok.inj ha)
      exact .of_eq rfl rfl rfl rfl
  | stateSet goalId key value version =>
      refine storeStep_unitOfWork rfl h fun a ha => ?_
      obtain ⟨heffects, hevents, hstarted⟩ := stateSet_ok ha
      exact .of_eq rfl heffects hevents hstarted
  | reserveRun chatId admissionId readiness =>
      refine storeStep_unitOfWork rfl h fun a ha => ?_
      obtain ⟨heffects, hevents, hstarted⟩ := reserveRun_ok ha
      exact .of_eq rfl heffects hevents hstarted
  | finishRun admissionId =>
      refine storeStep_unitOfWork (x := Goals.finishRun admissionId) rfl h fun a ha => ?_
      obtain ⟨_, rfl⟩ := Prod.mk.inj (Except.ok.inj ha)
      exact .of_eq rfl rfl rfl rfl
  | kernelExecute x outcome =>
      obtain ⟨rfl, rfl⟩ := Prod.mk.inj h
      exact ⟨.same rfl, List.prefix_refl _, rfl, fun _ he _ => .inl he⟩
  | launchTurn x outcome =>
      obtain ⟨rfl, rfl⟩ := Prod.mk.inj h
      exact ⟨.same rfl, List.prefix_refl _, rfl, fun _ he _ => .inl he⟩
  | cancelGoal goalId reason goals steps =>
      refine storeStep_unitOfWork (x := Goals.cancelGoal goalId reason goals steps) rfl h fun a ha => ?_
      obtain ⟨hrows, hevents, hstarted, hold⟩ := rowsStep_cancelGoal ha
      exact ⟨hrows, hevents ▸ List.prefix_refl _, by rw [hstarted]; exact (List.append_nil _).symm,
        fun x hx hstatus => .inl (hold x hx hstatus)⟩
  | elsewhere goals steps =>
      obtain ⟨rfl, rfl⟩ := Prod.mk.inj h
      exact .of_eq rfl rfl rfl rfl

/-! ## 2.  What a handler does -/

abbrev GoalEntry := Entry GoalStep GoalStep.Reply GoalError

/-- An entry that marks an effect dispatched. -/
def isMark (effectId : String) : GoalEntry → Bool
  | ⟨.updateEffect q, .ok _⟩ => q.effectId = effectId && q.status = .dispatched
  | _ => false

theorem mark_of_isMark {effectId : String} {q : EffectUpdate} {r : Except GoalError EffectRecord}
    (h : isMark effectId ⟨.updateEffect q, r⟩ = true) :
    q.effectId = effectId ∧ q.status = .dispatched ∧ ∃ effect, r = .ok effect := by
  cases r with
  | error e => cases h
  | ok effect =>
      have hboth : (decide (q.effectId = effectId) && decide (q.status = .dispatched)) = true := h
      rw [Bool.and_eq_true, decide_eq_true_eq, decide_eq_true_eq] at hboth
      exact ⟨hboth.1, hboth.2, effect, rfl⟩

/-- An entry that begins the action of an effect. -/
def isStart (effectId : String) (e : GoalEntry) : Bool := e.1.startOf.any fun x => x.effectId = effectId

/-- A step that neither begins anything nor records an effect. -/
def Quiet (t : GoalStep) : Prop := t.startOf = none ∧ ∀ q draw, t ≠ .recordEffect q draw

/-- Nothing was begun. -/
def Idle (done : List GoalEntry) : Prop := ∀ e ∈ done, e.1.startOf = none

/-- The effect that was handed out. -/
def Recorded (done : List GoalEntry) (q : EffectRequest) (effect : EffectRecord) : Prop :=
  ∃ draw, ⟨.recordEffect q draw, .ok effect⟩ ∈ done

/-- An effect was found beyond planned. -/
def Beyond (done : List GoalEntry) : Prop :=
  ∃ q effect, Recorded done q effect ∧ effect.status ≠ .planned

/-- **What a handler has done when it begins something.** -/
structure Licensed (done : List GoalEntry) (x : Start) : Prop where
  effect : ∃ goal q effect, ⟨.requireGoal x.goalId, .ok goal⟩ ∈ done ∧ Recorded done q effect ∧
    effect.effectId = x.effectId ∧ q.goalId = goal.goalId ∧
    q.idempotencyKey = effectKey goal.goalId x.stepId x.attempt x.kind
  idle : Idle done
  marked : ∃ e ∈ done, isMark x.effectId e = true
  fresh : ¬ Beyond done

/-- What a handler may do next. -/
structure Permitted (done : List GoalEntry) (t : GoalStep) : Prop where
  start : ∀ x, t.startOf = some x → Licensed done x
  record : ∀ q draw, t = .recordEffect q draw → Idle done

/-- A run that could not be finished. -/
def FinishFailed (done : List GoalEntry) : Prop :=
  ∃ admissionId e, ⟨.finishRun admissionId, .error e⟩ ∈ done

/-- A handler that found its effect beyond planned reports blocked. -/
def Reports (done : List GoalEntry) (r : Except GoalError StepResult) : Prop :=
  Beyond done → (∃ result, r = .ok result ∧ result.status = .blocked) ∨ FinishFailed done

section Handlers

variable {α β : Type} {done new : List GoalEntry}
  {Q : List GoalEntry → Except GoalError β → Prop}

theorem Quiet.permitted {t : GoalStep} (h : Quiet t) : Permitted done t :=
  ⟨fun x hx => absurd hx (by rw [h.1]; simp), fun q draw heq => absurd heq (h.2 q draw)⟩

theorem not_beyond_nil : ¬ Beyond [] := fun ⟨_, _, ⟨_, h⟩, _⟩ => absurd h List.not_mem_nil

/-- A quiet step finds no effect. -/
theorem beyond_cons_of_quiet {e : GoalEntry} (h : Quiet e.1) : Beyond (e :: done) ↔ Beyond done := by
  constructor
  · rintro ⟨q, effect, ⟨draw, hmem⟩, hstatus⟩
    rcases List.mem_cons.mp hmem with rfl | hmem
    · exact absurd rfl (h.2 q draw)
    · exact ⟨q, effect, ⟨draw, hmem⟩, hstatus⟩
  · rintro ⟨q, effect, ⟨draw, hmem⟩, hstatus⟩
    exact ⟨q, effect, ⟨draw, List.mem_cons_of_mem _ hmem⟩, hstatus⟩

theorem beyond_append_of_quiet (h : ∀ e ∈ new, Quiet e.1) : Beyond (new ++ done) ↔ Beyond done := by
  induction new with
  | nil => exact Iff.rfl
  | cons e new ih =>
      rw [List.cons_append, beyond_cons_of_quiet (h e List.mem_cons_self),
        ih fun e' he' => h e' (List.mem_cons_of_mem _ he')]

theorem beyond_cons_start {e : GoalEntry} {x : Start} (h : e.1.startOf = some x) :
    Beyond (e :: done) ↔ Beyond done := by
  constructor
  · rintro ⟨q, effect, ⟨draw, hmem⟩, hstatus⟩
    rcases List.mem_cons.mp hmem with rfl | hmem
    · cases h
    · exact ⟨q, effect, ⟨draw, hmem⟩, hstatus⟩
  · rintro ⟨q, effect, ⟨draw, hmem⟩, hstatus⟩
    exact ⟨q, effect, ⟨draw, List.mem_cons_of_mem _ hmem⟩, hstatus⟩

theorem beyond_cons_record {q : EffectRequest} {draw : BitVec 128} {r : Except GoalError EffectRecord} :
    Beyond (⟨.recordEffect q draw, r⟩ :: done) ↔
      (∃ effect, r = .ok effect ∧ effect.status ≠ .planned) ∨ Beyond done := by
  constructor
  · rintro ⟨q', effect, ⟨draw', hmem⟩, hstatus⟩
    rcases List.mem_cons.mp hmem with heq | hmem
    · obtain ⟨ht, hr⟩ := Sigma.mk.inj heq
      obtain ⟨rfl, rfl⟩ := GoalStep.recordEffect.inj ht
      exact .inl ⟨effect, (eq_of_heq hr).symm, hstatus⟩
    · exact .inr ⟨q', effect, ⟨draw', hmem⟩, hstatus⟩
  · rintro (⟨effect, rfl, hstatus⟩ | ⟨q', effect, ⟨draw', hmem⟩, hstatus⟩)
    · exact ⟨q, effect, ⟨draw, List.mem_cons_self⟩, hstatus⟩
    · exact ⟨q', effect, ⟨draw', List.mem_cons_of_mem _ hmem⟩, hstatus⟩

theorem Licensed.append {x : Start} (h : Licensed done x) (hnew : ∀ e ∈ new, Quiet e.1) :
    Licensed (new ++ done) x := by
  obtain ⟨goal, q, effect, hgoal, ⟨draw, hrecorded⟩, hrest⟩ := h.effect
  obtain ⟨mark, hmem, hmark⟩ := h.marked
  refine ⟨⟨goal, q, effect, List.mem_append_right _ hgoal, ⟨draw, List.mem_append_right _ hrecorded⟩,
    hrest⟩, fun e he => ?_, ⟨mark, List.mem_append_right _ hmem, hmark⟩, ?_⟩
  · rcases List.mem_append.mp he with he | he
    · exact (hnew e he).1
    · exact h.idle e he
  · rw [beyond_append_of_quiet hnew]
    exact h.fresh

/-- A handler all of whose steps are quiet. -/
def Silent (p : Handler α) : Prop := ∀ done, p.Ensures (fun _ t => Quiet t) (fun _ _ => True) done

theorem silent_pure (a : α) : Silent (pure a : Handler α) := fun _ => trivial

theorem silent_raise (e : GoalError) : Silent (.raise e : Handler α) := fun _ => trivial

theorem silent_ask {t : GoalStep} (h : Quiet t) : Silent (ask t) := fun _ =>
  Prog.ensures_request.mpr ⟨h, fun _ => trivial⟩

theorem Silent.bind {p : Handler α} {f : α → Handler β} (hp : Silent p) (hf : ∀ a, Silent (f a)) :
    Silent (p >>= f) := fun done =>
  (hp done).bind (fun done a _ => hf a done) fun _ _ _ => trivial

theorem Silent.handle {p : Handler α} {f : GoalError → Handler α} (hp : Silent p)
    (hf : ∀ e, Silent (f e)) : Silent (p.handle f) := fun done => by
  rw [Prog.ensures_handle]
  refine (hp done).mono (fun _ _ ht => ht) fun done r _ => ?_
  cases r with
  | ok a => trivial
  | error e => exact hf e done

theorem silent_ite {c : Prop} [Decidable c] {p q : Handler α} (hp : Silent p) (hq : Silent q) :
    Silent (if c then p else q) := by
  split
  · exact hp
  · exact hq

/-- A silent part of a handler. -/
theorem Silent.ensures_bind {p : Handler α} {f : α → Handler β} (hp : Silent p)
    (hok : ∀ new a, (∀ e ∈ new, Quiet e.1) → (f a).Ensures Permitted Q (new ++ done))
    (herror : ∀ new e, (∀ e ∈ new, Quiet e.1) → Q (new ++ done) (.error e)) :
    (p >>= f).Ensures Permitted Q done := by
  refine ((hp done).made.mono (fun _ _ ht => ht.permitted) fun _ _ hr => hr.2).bind ?_ ?_
  · rintro _ a ⟨new, rfl, hnew⟩
    exact hok new a hnew
  · rintro _ e ⟨new, rfl, hnew⟩
    exact herror new e hnew

/-- The silent end of a handler. -/
theorem Silent.ensures {p : Handler β} (hp : Silent p)
    (hQ : ∀ new r, (∀ e ∈ new, Quiet e.1) → Q (new ++ done) r) : p.Ensures Permitted Q done := by
  refine (hp done).made.mono (fun _ _ ht => ht.permitted) ?_
  rintro _ r ⟨_, new, rfl, hnew⟩
  exact hQ new r hnew

theorem quiet_requireGoal (goalId : String) : Quiet (.requireGoal goalId) := ⟨rfl, nofun⟩

theorem quiet_updateEffect (q : EffectUpdate) : Quiet (.updateEffect q) := ⟨rfl, nofun⟩

theorem quiet_listEffects (goalId : String) : Quiet (.listEffects goalId) := ⟨rfl, nofun⟩

theorem quiet_getEffect (effectId : String) : Quiet (.getEffect effectId) := ⟨rfl, nofun⟩

theorem quiet_stateSet (goalId key : String) (value : Payload) (version : Nat) :
    Quiet (.stateSet goalId key value version) := ⟨rfl, nofun⟩

theorem quiet_reserveRun (chatId admissionId : String) (readiness : Readiness) :
    Quiet (.reserveRun chatId admissionId readiness) := ⟨rfl, nofun⟩

theorem quiet_finishRun (admissionId : String) : Quiet (.finishRun admissionId) := ⟨rfl, nofun⟩

theorem silent_effectUpdate (effect : EffectRecord) (status : EffectStatus) (response : Payload)
    (error : String) : Silent (effectUpdate effect status response error) :=
  (silent_ask (quiet_requireGoal _)).bind fun _ =>
    (silent_ask (quiet_updateEffect _)).bind fun _ => silent_pure ()

theorem silent_setState (goalId key : String) (value : Payload) : Silent (setState goalId key value) :=
  (silent_ask (quiet_requireGoal _)).bind fun _ => silent_ask (quiet_stateSet _ _ _ _)

theorem silent_settleInterruptedEffect (effect : EffectRecord) (cancelled : Bool) (error : String)
    (n : Nat) : Silent (settleInterruptedEffect effect cancelled error n) := by
  induction n with
  | zero => exact silent_pure ()
  | succ n ih =>
      refine (silent_ask (quiet_listEffects _)).bind fun effects => ?_
      split
      · exact silent_pure ()
      · refine silent_ite (silent_pure ()) ((silent_effectUpdate _ _ _ _).handle fun e => ?_)
        exact silent_ite ih (silent_raise e)

theorem silent_resolveParent (effectId : String) (success : Bool) (slot : Payload) :
    Silent (resolveParent effectId success slot) := by
  refine (silent_ask (quiet_getEffect _)).bind fun found => ?_
  cases found with
  | none => exact silent_pure ()
  | some effect => exact silent_ite (silent_effectUpdate _ _ _ _) (silent_pure ())

theorem silent_fenceEffects (effects : List EffectRecord) : Silent (fenceEffects effects) := by
  induction effects with
  | nil => exact silent_pure ()
  | cons effect effects ih =>
      exact silent_ite ih ((silent_effectUpdate _ _ _ _).bind fun _ => ih)

theorem silent_reconcileStep (goalId stepId : String) (attempt : Int) :
    Silent (reconcileStep goalId stepId attempt) :=
  (silent_ask (quiet_requireGoal _)).bind fun _ =>
    (silent_ask (quiet_listEffects _)).bind fun _ => silent_fenceEffects _

theorem silent_settleKernel (p : PythonStep) (effect : EffectRecord) (result : KernelResult) :
    Silent (settleKernel p effect result) :=
  silent_ite ((silent_settleInterruptedEffect _ _ _ _).bind fun _ => silent_pure _)
    ((silent_effectUpdate _ _ _ _).bind fun _ => silent_pure _)

/-! ## 3.  The handlers are licensed -/

/-- What `effectOf` asks for. -/
def requestOf (c : StepContext) (kind : String) (request : Payload) (goal : GoalRow) : EffectRequest :=
  ⟨goal.goalId, c.stepId, goal.version, kind, effectKey goal.goalId c.stepId c.attempt kind, request⟩

/-- The steps of `effectOf`. -/
theorem ensures_effectOf {c : StepContext} {kind : String} {request : Payload} {draw : BitVec 128}
    {f : EffectRecord → Handler β} (hidle : Idle done) (hbeyond : ¬ Beyond done)
    (hok : ∀ goal effect, (f effect).Ensures Permitted Q
      (⟨.recordEffect (requestOf c kind request goal) draw, .ok effect⟩ ::
        ⟨.requireGoal c.goalId, .ok goal⟩ :: done))
    (herror : ∀ new e, ¬ Beyond new → Q new (.error e)) :
    (effectOf c kind request draw >>= f).Ensures Permitted Q done := by
  unfold effectOf ask
  rw [Prog.ensures_bind, Prog.ensures_request_bind]
  have hgoal : ∀ r, ¬ Beyond (⟨.requireGoal c.goalId, r⟩ :: done) := fun r => by
    rw [beyond_cons_of_quiet (quiet_requireGoal _)]
    exact hbeyond
  refine ⟨(quiet_requireGoal _).permitted, fun goal => ?_, fun e => herror _ e (hgoal _)⟩
  refine Prog.ensures_request.mpr ⟨⟨nofun, fun q draw' _ e he => ?_⟩, fun r => ?_⟩
  · rcases List.mem_cons.mp he with rfl | he
    · rfl
    · exact hidle e he
  · cases r with
    | ok effect => exact hok goal effect
    | error e =>
        refine herror _ e ?_
        rw [beyond_cons_record]
        rintro (⟨_, heq, _⟩ | h)
        · cases heq
        · exact hgoal _ h

/-- The steps of `effectUpdate`. -/
theorem ensures_effectUpdate {effect : EffectRecord} {status : EffectStatus} {response : Payload}
    {error : String} {f : Unit → Handler β} (hbeyond : ¬ Beyond done)
    (hok : ∀ goal effect', (f ()).Ensures Permitted Q
      (⟨.updateEffect ⟨effect.effectId, GoalRow.version goal, status, response, "", clip error 4000⟩,
          .ok effect'⟩ :: ⟨.requireGoal effect.goalId, .ok goal⟩ :: done))
    (herror : ∀ new e, ¬ Beyond new → Q new (.error e)) :
    (effectUpdate effect status response error >>= f).Ensures Permitted Q done := by
  unfold effectUpdate ask
  rw [Prog.ensures_bind, Prog.ensures_request_bind]
  have hgoal : ∀ r, ¬ Beyond (⟨.requireGoal effect.goalId, r⟩ :: done) := fun r => by
    rw [beyond_cons_of_quiet (quiet_requireGoal _)]
    exact hbeyond
  refine ⟨(quiet_requireGoal _).permitted, fun goal => ?_, fun e => herror _ e (hgoal _)⟩
  refine Prog.ensures_request_bind.mpr ⟨(quiet_updateEffect _).permitted,
    fun effect' => hok goal effect', fun e => herror _ e ?_⟩
  rw [beyond_cons_of_quiet (quiet_updateEffect _)]
  exact hgoal _

/-- An effect that is found planned. -/
theorem not_beyond_planned {q : EffectRequest} {draw : BitVec 128} {goalId : String}
    {r : Except GoalError GoalRow} {effect : EffectRecord} (hbeyond : ¬ Beyond done)
    (hstatus : effect.status = .planned) :
    ¬ Beyond (⟨.recordEffect q draw, .ok effect⟩ :: ⟨.requireGoal goalId, r⟩ :: done) := by
  rw [beyond_cons_record, beyond_cons_of_quiet (quiet_requireGoal _)]
  rintro (⟨effect', heq, hne⟩ | h)
  · obtain rfl := Except.ok.inj heq
    exact hne hstatus
  · exact hbeyond h

/-- A planned effect that was marked is a license to begin. -/
theorem licensed_marked {c : StepContext} {kind : String} {request : Payload} {draw : BitVec 128}
    {goal goal' : GoalRow} {effect effect' : EffectRecord} {response : Payload} {error : String}
    (hidle : Idle done) (hbeyond : ¬ Beyond done) (hstatus : effect.status = .planned) :
    Licensed (⟨.updateEffect ⟨effect.effectId, goal'.version, .dispatched, response, "", clip error 4000⟩,
        .ok effect'⟩ :: ⟨.requireGoal effect.goalId, .ok goal'⟩ ::
      ⟨.recordEffect (requestOf c kind request goal) draw, .ok effect⟩ ::
      ⟨.requireGoal c.goalId, .ok goal⟩ :: done) (c.start kind effect.effectId) where
  effect := ⟨goal, requestOf c kind request goal, effect, by simp [StepContext.start],
    ⟨draw, by simp⟩, rfl, rfl, rfl⟩
  idle := fun e he => by
    simp only [List.mem_cons] at he
    rcases he with rfl | rfl | rfl | rfl | he
    · rfl
    · rfl
    · rfl
    · rfl
    · exact hidle e he
  marked := ⟨_, List.mem_cons_self, by simp [isMark, StepContext.start]⟩
  fresh := by
    rw [beyond_cons_of_quiet (quiet_updateEffect _), beyond_cons_of_quiet (quiet_requireGoal _)]
    exact not_beyond_planned hbeyond hstatus

theorem reports_of_not_beyond {r : Except GoalError StepResult} (h : ¬ Beyond done) : Reports done r :=
  fun hbeyond => absurd hbeyond h

/-- The end of a handler after it has begun something. -/
theorem Silent.reports {p : Handler StepResult} (hp : Silent p) (hbeyond : ¬ Beyond done) :
    p.Ensures Permitted Reports done := by
  refine hp.ensures fun new r hnew => reports_of_not_beyond ?_
  rw [beyond_append_of_quiet hnew]
  exact hbeyond

theorem ensures_executeKernel {c : StepContext} {p : PythonStep} {effect : EffectRecord}
    (hlicensed : Licensed done (c.start "kernel.execute" effect.effectId)) :
    (executeKernel c p effect >>= settleKernel p effect).Ensures Permitted Reports done := by
  have hbegun : ∀ r, ¬ Beyond (⟨.kernelExecute (c.start "kernel.execute" effect.effectId) p.outcome, r⟩ ::
      done) := fun r => by
    rw [beyond_cons_start rfl]
    exact hlicensed.fresh
  unfold executeKernel
  rw [Prog.ensures_bind, Prog.ensures_handle]
  refine Prog.ensures_request.mpr ⟨⟨fun x hx => ?_, nofun⟩, fun r => ?_⟩
  · obtain rfl := Option.some.inj hx
    exact hlicensed
  · cases r with
    | ok result => exact (silent_settleKernel p effect result).reports (hbegun _)
    | error e =>
        have hsettle : Silent (settleRaised p effect e >>= fun _ => (.raise e : Handler KernelResult)) :=
          (silent_ite (silent_settleInterruptedEffect _ _ _ _)
            (silent_settleInterruptedEffect _ _ _ _)).bind fun _ => silent_raise e
        refine hsettle.ensures fun new r hnew => ?_
        have hquiet := (beyond_append_of_quiet hnew).not.mpr (hbegun (.error e))
        cases r with
        | ok result => exact (silent_settleKernel p effect result).reports hquiet
        | error e' => exact reports_of_not_beyond hquiet

/-- **`python` begins what it has marked**, and reports what it finds beyond planned. -/
theorem ensures_python (sha256 : String → String) (c : StepContext) (p : PythonStep) :
    (python sha256 c p).Ensures Permitted Reports [] := by
  unfold python
  split
  · exact reports_of_not_beyond not_beyond_nil
  split
  · exact reports_of_not_beyond not_beyond_nil
  split
  · exact reports_of_not_beyond not_beyond_nil
  refine ensures_effectOf (fun e he => absurd he List.not_mem_nil) not_beyond_nil
    (fun goal effect => ?_) fun new e hnew => reports_of_not_beyond hnew
  by_cases hstatus : effect.status = .planned
  · rw [if_neg (not_not.mpr hstatus)]
    refine ensures_effectUpdate (not_beyond_planned not_beyond_nil hstatus) (fun goal' effect' => ?_)
      fun new e hnew => reports_of_not_beyond hnew
    exact ensures_executeKernel (licensed_marked (fun e he => absurd he List.not_mem_nil)
      not_beyond_nil hstatus)
  · rw [if_pos hstatus]
    exact fun _ => .inl ⟨_, rfl, rfl⟩

/-- A parent turn is launched after its slot and its outcome are set. -/
theorem ensures_launchTurn {c : StepContext} {p : ParentStep} {effectId : String} {slot value : Payload}
    {result : StepResult} (hlicensed : Licensed done (c.start "parent.turn" effectId)) :
    (do
      setState c.goalId "parent_turn" slot
      setState c.goalId "objective_outcome" value
      let _ : Unit ← ask (.launchTurn (c.start "parent.turn" effectId) p.outcome)
      return result : Handler StepResult).Ensures Permitted Reports done := by
  refine (silent_setState _ _ _).ensures_bind (fun new _ hnew => ?_) fun new e hnew =>
    reports_of_not_beyond (hlicensed.append hnew).fresh
  refine (silent_setState _ _ _).ensures_bind (fun new' _ hnew' => ?_) fun new' e hnew' =>
    reports_of_not_beyond ((hlicensed.append hnew).append hnew').fresh
  have hbegun := (hlicensed.append hnew).append hnew'
  refine Prog.ensures_request_bind.mpr ⟨⟨fun x hx => ?_, nofun⟩, fun _ => ?_, fun e => ?_⟩
  · obtain rfl := Option.some.inj hx
    exact hbegun
  · refine reports_of_not_beyond ?_
    rw [beyond_cons_start rfl]
    exact hbegun.fresh
  · refine reports_of_not_beyond ?_
    rw [beyond_cons_start rfl]
    exact hbegun.fresh

/-- The steps of an admitted parent turn. -/
theorem ensures_executeAdmitted (c : StepContext) (p : ParentStep) (admission : String)
    (hidle : Idle done) (hbeyond : ¬ Beyond done) :
    (executeAdmitted c p admission).Ensures Permitted Reports done := by
  unfold executeAdmitted
  refine ensures_effectOf hidle hbeyond (fun goal effect => ?_) fun new e hnew =>
    reports_of_not_beyond hnew
  by_cases hstatus : effect.status = .planned
  · rw [if_neg (not_not.mpr hstatus)]
    refine ensures_effectUpdate (not_beyond_planned hbeyond hstatus) (fun goal' effect' => ?_)
      fun new e hnew => reports_of_not_beyond hnew
    exact ensures_launchTurn (licensed_marked hidle hbeyond hstatus)
  · rw [if_pos hstatus]
    refine Prog.ensures_request_bind.mpr ⟨(quiet_finishRun _).permitted, fun _ _ => ?_, fun e _ => ?_⟩
    · exact .inl ⟨_, rfl, rfl⟩
    · exact .inr ⟨admission, e, List.mem_cons_self⟩

/-- **The parent session begins what it has marked**, and reports what it finds beyond planned. -/
theorem ensures_executeParent (c : StepContext) (p : ParentStep) :
    (executeParent c p).Ensures Permitted Reports [] := by
  unfold executeParent
  split
  · exact reports_of_not_beyond not_beyond_nil
  split
  · exact reports_of_not_beyond not_beyond_nil
  have hreserved : ∀ r, ¬ Beyond [⟨.reserveRun c.ownerChatId p.admissionId p.readiness, r⟩] := fun r => by
    rw [beyond_cons_of_quiet (quiet_reserveRun _ _ _)]
    exact not_beyond_nil
  refine Prog.ensures_request_bind.mpr ⟨(quiet_reserveRun _ _ _).permitted, fun admitted => ?_,
    fun e => reports_of_not_beyond (hreserved _)⟩
  cases admitted with
  | none => exact reports_of_not_beyond (hreserved _)
  | some admission =>
      dsimp only
      rw [Prog.ensures_handle]
      have hidle : Idle [⟨.reserveRun c.ownerChatId p.admissionId p.readiness, .ok (some admission)⟩] :=
        fun e he => by
          rw [List.mem_singleton.mp he]
          rfl
      refine (ensures_executeAdmitted c p admission hidle (hreserved _)).mono (fun _ _ ht => ht) ?_
      intro done r hr
      cases r with
      | ok result => exact hr
      | error e =>
          have hfinish : Silent (ask (.finishRun admission) >>= fun _ =>
              (.raise e : Handler StepResult)) :=
            (silent_ask (quiet_finishRun _)).bind fun _ => silent_raise e
          refine hfinish.ensures fun new r hnew hbeyond => ?_
          rw [beyond_append_of_quiet hnew] at hbeyond
          rcases hr hbeyond with ⟨result, heq, _⟩ | ⟨admissionId, e', hfailed⟩
          · cases heq
          · exact .inr ⟨admissionId, e', List.mem_append_right _ hfailed⟩

theorem ensures_dispatchOther (c : StepContext) (kind : String) (request response : Payload)
    (draw : BitVec 128) :
    (dispatchOther c kind request response draw).Ensures Permitted Reports [] := by
  unfold dispatchOther
  refine ensures_effectOf (fun e he => absurd he List.not_mem_nil) not_beyond_nil
    (fun goal effect => ?_) fun new e hnew => reports_of_not_beyond hnew
  by_cases hstatus : effect.status = .planned
  · rw [if_neg (not_not.mpr hstatus)]
    exact ((silent_effectUpdate _ _ _ _).bind fun _ => silent_pure _).reports
      (not_beyond_planned not_beyond_nil hstatus)
  · rw [if_pos hstatus]
    exact fun _ => .inl ⟨_, rfl, rfl⟩

/-- The other handlers begin no kernel execution and no parent turn. -/
theorem startless_dispatchOther (c : StepContext) (kind : String) (request response : Payload)
    (draw : BitVec 128) :
    (dispatchOther c kind request response draw).Ensures (fun _ t => t.startOf = none)
      (fun _ _ => True) [] := by
  unfold dispatchOther effectOf ask
  rw [Prog.ensures_bind, Prog.ensures_request_bind]
  refine ⟨rfl, fun goal => ?_, fun e => trivial⟩
  refine (Prog.ensures_request (P := fun _ t => GoalStep.startOf t = none)).mpr ⟨rfl, fun r => ?_⟩
  cases r with
  | error e => trivial
  | ok effect =>
      dsimp only
      split
      · trivial
      · have hsilent : Silent (effectUpdate effect .dispatched response "" >>= fun _ =>
            (pure ⟨.waiting, "", "", "", []⟩ : Handler StepResult)) :=
          (silent_effectUpdate _ _ _ _).bind fun _ => silent_pure _
        exact (hsilent _).mono (fun _ _ ht => ht.1) fun _ _ _ => trivial

/-- The handlers that begin something. -/
def Operation.begins : Operation → Bool
  | .python _ _ | .parent _ _ => true
  | _ => false

/-- What an operation replies. -/
def OperationReports (done : List GoalEntry) (r : Except GoalError (Option StepResult)) : Prop :=
  Beyond done → (∃ result, r = .ok (some result) ∧ result.status = .blocked) ∨ FinishFailed done

/-- An operation that is a handler. -/
theorem ensures_operation {p : Handler StepResult} (h : p.Ensures Permitted Reports []) :
    (p >>= fun result => (pure (some result) : Handler (Option StepResult))).Ensures Permitted
      OperationReports [] := by
  rw [Prog.ensures_bind]
  refine h.mono (fun _ _ ht => ht) fun done r hr => ?_
  cases r with
  | ok result =>
      intro hbeyond
      rcases hr hbeyond with ⟨result', heq, hstatus⟩ | hfailed
      · obtain rfl := Except.ok.inj heq
        exact .inl ⟨result, rfl, hstatus⟩
      · exact .inr hfailed
  | error e =>
      intro hbeyond
      rcases hr hbeyond with ⟨result', heq, _⟩ | hfailed
      · cases heq
      · exact .inr hfailed

/-- An operation all of whose steps are quiet. -/
theorem Silent.operation {p : Handler Unit} (hp : Silent p) :
    (p >>= fun _ => (pure none : Handler (Option StepResult))).Ensures Permitted OperationReports [] := by
  have hsilent : Silent (p >>= fun _ => (pure none : Handler (Option StepResult))) :=
    hp.bind fun _ => silent_pure none
  refine hsilent.ensures fun new r hnew hbeyond => ?_
  rw [beyond_append_of_quiet hnew] at hbeyond
  exact absurd hbeyond not_beyond_nil

/-- **What every operation does.** -/
theorem ensures_program (sha256 : String → String) (k : Operation) :
    ((goalHost sha256).program k).Ensures
      (fun done t => Permitted done t ∧ (k.begins = false → t.startOf = none))
      (fun done r => OperationReports done r ∧ True) [] := by
  cases k with
  | python c p =>
      exact (ensures_operation (ensures_python sha256 c p)).mono (fun _ _ ht => ⟨ht, nofun⟩)
        fun _ _ hr => ⟨hr, trivial⟩
  | parent c p =>
      exact (ensures_operation (ensures_executeParent c p)).mono (fun _ _ ht => ⟨ht, nofun⟩)
        fun _ _ hr => ⟨hr, trivial⟩
  | other c kind request response draw =>
      have hstartless := (startless_dispatchOther c kind request response draw).bind
        (f := fun result => (pure (some result) : Handler (Option StepResult)))
        (Q := fun _ _ => True) (fun _ _ _ => trivial) fun _ _ _ => trivial
      exact ((ensures_operation (ensures_dispatchOther c kind request response draw)).and
        hstartless).mono (fun _ _ ht => ⟨ht.1, fun _ => ht.2⟩) fun _ _ hr => hr
  | recover goalId stepId attempt =>
      have hsilent := (silent_reconcileStep goalId stepId attempt)
      have hquiet : Silent (reconcileStep goalId stepId attempt >>= fun _ =>
          (pure none : Handler (Option StepResult))) := hsilent.bind fun _ => silent_pure none
      exact (hsilent.operation.and (hquiet [])).mono (fun _ _ ht => ⟨ht.1, fun _ => ht.2.1⟩)
        fun _ _ hr => hr
  | resolve effectId success slot =>
      have hsilent := (silent_resolveParent effectId success slot)
      have hquiet : Silent (resolveParent effectId success slot >>= fun _ =>
          (pure none : Handler (Option StepResult))) := hsilent.bind fun _ => silent_pure none
      exact (hsilent.operation.and (hquiet [])).mono (fun _ _ ht => ⟨ht.1, fun _ => ht.2.1⟩)
        fun _ _ hr => hr

end Handlers

/-! ## 4.  The store keeps its effects -/

/-- The effect that an action was begun for. -/
def Behind (s : GoalStore) (x : Start) : Prop :=
  ∃ e ∈ s.effects.rows, e.effectId = x.effectId ∧ e.goalId = x.goalId ∧
    goalText (effectKey x.goalId x.stepId x.attempt x.kind) "effect idempotency_key" true 512 =
      .ok e.idempotencyKey

/-- **The invariant of the store.** -/
structure Sound (s : GoalStore) : Prop where
  /-- A key of a goal has one effect. -/
  slots : (s.effects.rows.map EffectRecord.slot).Nodup
  marked : ∀ e ∈ s.effects.rows, e.status = .dispatched → Marked s e.effectId
  started : ∀ x ∈ s.started, Marked s x.effectId ∧ Behind s x

/-- What an entry says of the store. -/
def Borne (s : GoalStore) : GoalEntry → Prop
  | ⟨.requireGoal goalId, .ok goal⟩ => GoalRow.goalId goal = goalId
  | ⟨.recordEffect q _, .ok effect⟩ => ∃ e ∈ s.effects.rows,
      e.effectId = EffectRecord.effectId effect ∧ e.goalId = q.goalId ∧
        goalText q.idempotencyKey "effect idempotency_key" true 512 = .ok e.idempotencyKey
  | ⟨.updateEffect q, .ok _⟩ => q.status = .dispatched → Marked s q.effectId
  | ⟨.finishRun _, .error _⟩ => False
  | _ => True

section Store

variable {s s' : GoalStore} {t : GoalStep}

/-- An effect stays, and is what it was. -/
theorem RowsStep.kept (h : RowsStep s s') {e : EffectRecord} (he : e ∈ s.effects.rows) :
    ∃ e' ∈ s'.effects.rows, After e e' := by
  cases h with
  | moved f hf hrows => exact ⟨f e, hrows ▸ List.mem_map_of_mem he, hf e he⟩
  | added e' _ _ hrows => exact ⟨e, hrows ▸ List.mem_append_left _ he, .refl e⟩

theorem RowsStep.slots (h : RowsStep s s') (hs : (s.effects.rows.map EffectRecord.slot).Nodup) :
    (s'.effects.rows.map EffectRecord.slot).Nodup := by
  cases h with
  | moved f hf hrows =>
      have hslots : (s.effects.rows.map f).map EffectRecord.slot =
          s.effects.rows.map EffectRecord.slot := by
        rw [List.map_map]
        exact List.map_congr_left fun e he => Prod.ext (hf e he).goalId (hf e he).key
      rw [hrows, hslots]
      exact hs
  | added e _ hkey hrows =>
      rw [hrows, List.map_append]
      exact List.Nodup.append hs (List.nodup_singleton _) (by simpa using hkey)

theorem StoreStep.marked (h : StoreStep t s s') {effectId : String} (hs : Marked s effectId) :
    Marked s' effectId := by
  obtain ⟨event, hmem, hevent⟩ := hs
  exact ⟨event, h.events.subset hmem, hevent⟩

theorem StoreStep.behind (h : StoreStep t s s') {x : Start} (hs : Behind s x) : Behind s' x := by
  obtain ⟨e, he, hid, hgoal, hkey⟩ := hs
  obtain ⟨e', he', hafter⟩ := h.rows.kept he
  exact ⟨e', he', hafter.effectId.trans hid, hafter.goalId.trans hgoal, by rw [hafter.key]; exact hkey⟩

/-- **A step keeps the store sound**, when it begins what is marked. -/
theorem Sound.step (hs : Sound s) (h : StoreStep t s s')
    (hstart : ∀ x, t.startOf = some x → Marked s x.effectId ∧ Behind s x) : Sound s' where
  slots := h.rows.slots hs.slots
  marked := fun e he hstatus => (h.dispatched e he hstatus).elim
    (fun hold => h.marked (hs.marked e hold hstatus)) id
  started := fun x hx => by
    rw [h.started] at hx
    rcases List.mem_append.mp hx with hx | hx
    · exact ⟨h.marked (hs.started x hx).1, h.behind (hs.started x hx).2⟩
    · have hbegun := hstart x (Option.mem_toList.mp hx)
      exact ⟨h.marked hbegun.1, h.behind hbegun.2⟩

/-- What an entry says stays true. -/
theorem StoreStep.borne (h : StoreStep t s s') {e : GoalEntry} (he : Borne s e) : Borne s' e := by
  obtain ⟨t', r⟩ := e
  cases t' with
  | recordEffect q draw =>
      cases r with
      | error e => trivial
      | ok effect =>
          obtain ⟨e, hmem, hid, hgoal, hkey⟩ := he
          obtain ⟨e', hmem', hafter⟩ := h.rows.kept hmem
          exact ⟨e', hmem', hafter.effectId.trans hid, hafter.goalId.trans hgoal,
            by rw [hafter.key]; exact hkey⟩
  | updateEffect q =>
      cases r with
      | error e => trivial
      | ok effect => exact fun hstatus => h.marked (he hstatus)
  | requireGoal goalId => cases r <;> exact he
  | finishRun admissionId => cases r <;> exact he
  | listEffects goalId => trivial
  | getEffect effectId => trivial
  | stateSet goalId key value version => trivial
  | reserveRun chatId admissionId readiness => trivial
  | kernelExecute x outcome => trivial
  | launchTurn x outcome => trivial
  | cancelGoal goalId reason goals steps => trivial
  | elsewhere goals steps => trivial

/-- What a step replies is true. -/
theorem borne_perform (hs : Sound s) {r : Except GoalError t.Reply} (h : perform t s = (r, s')) :
    Borne s' ⟨t, r⟩ := by
  cases t with
  | requireGoal goalId =>
      cases r with
      | error e => trivial
      | ok goal => exact (requireGoal_ok (Txn.unitOfWork_ok.mp h).1).1
  | recordEffect q draw =>
      cases r with
      | error e => trivial
      | ok effect =>
          obtain ⟨hmem, hgoal, hkey, _⟩ := recordEffect_ok (Txn.unitOfWork_ok.mp h).1
          exact ⟨effect, hmem, rfl, hgoal, hkey⟩
  | updateEffect q =>
      cases r with
      | error e => trivial
      | ok effect =>
          intro hstatus
          obtain ⟨e, hfind, _, ⟨rfl, hsame, _⟩ | ⟨_, _, version, hevents⟩⟩ :=
            updateEffect_ok (Txn.unitOfWork_ok.mp h).1
          · rw [← Table.key_of_find? hfind]
            exact hs.marked e (Table.mem_of_find? hfind) (hsame ▸ hstatus)
          · exact ⟨_, hevents ▸ List.mem_append_right _ (List.mem_singleton_self _), rfl, hstatus⟩
  | finishRun admissionId =>
      cases r with
      | error e => cases h
      | ok u => trivial
  | listEffects goalId => trivial
  | getEffect effectId => trivial
  | stateSet goalId key value version => trivial
  | reserveRun chatId admissionId readiness => trivial
  | kernelExecute x outcome => trivial
  | launchTurn x outcome => trivial
  | cancelGoal goalId reason goals steps => trivial
  | elsewhere goals steps => trivial

/-- A license is for an effect that is marked. -/
theorem Licensed.begun {done : List GoalEntry} {x : Start} (h : Licensed done x)
    (hdone : ∀ e ∈ done, Borne s e) : Marked s x.effectId ∧ Behind s x := by
  obtain ⟨goal, q, effect, hgoal, ⟨draw, hrecorded⟩, hid, hqgoal, hkey⟩ := h.effect
  obtain ⟨mark, hmem, hmark⟩ := h.marked
  have hgoalId : goal.goalId = x.goalId := hdone _ hgoal
  obtain ⟨e, he, heid, hegoal, hekey⟩ := hdone _ hrecorded
  refine ⟨?_, e, he, heid.trans hid, hegoal.trans (hqgoal.trans hgoalId), ?_⟩
  · have hborne := hdone mark hmem
    obtain ⟨t', r⟩ := mark
    cases t' with
    | updateEffect q' =>
        obtain ⟨hid', hstatus, effect', rfl⟩ := mark_of_isMark hmark
        rw [← hid']
        exact hborne hstatus
    | _ => cases hmark
  · rw [← hekey, hkey, hgoalId]

end Store

/-! ## 5.  Runs -/

abbrev GoalCrowd := Crowd GoalStore GoalStep GoalStep.Reply GoalError Operation (Option StepResult)

abbrev GoalHistory := List (Move Operation OutsideEvent × Option GoalEntry)

/-- A handler that begins something does not mark an effect that is marked already with the response it
gives. -/
def NoReplay (_ : GoalHistory) (w : GoalCrowd) : Move Operation OutsideEvent → Prop
  | .go i => ∀ task, w.tasks[i]? = some task → task.request.begins = true →
      ∀ q next, task.rest = .call (.updateEffect q) next → q.status = .dispatched →
        ∀ e, w.store.effects.find? q.effectId = some e → ¬ (e.status = .dispatched ∧ q.SameAs e)
  | _ => True

section Runs

variable {sha256 : String → String} {h : GoalHistory} {w : GoalCrowd}
  {C : GoalHistory → GoalCrowd → Move Operation OutsideEvent → Prop}

/-- Nothing is begun from outside. -/
theorem startOf_outside (event : OutsideEvent) : ((goalHost sha256).outside event).startOf = none := by
  cases event <;> rfl

theorem sound_empty : Sound GoalStore.empty where
  slots := List.nodup_nil
  marked := fun _ he => absurd he List.not_mem_nil
  started := fun _ hx => absurd hx List.not_mem_nil

/-- **In every run the store is sound, and handlers know what is true.** -/
theorem sound_of_run (hrun : ((goalHost sha256).machine GoalStore.empty).RunWhere C h w) :
    Sound w.store ∧ ∀ task ∈ w.tasks, (∀ e ∈ task.done, Borne w.store e) ∧
      task.rest.Ensures (fun done t => Permitted done t ∧ (task.request.begins = false → t.startOf = none))
        (fun done r => OperationReports done r ∧ True) task.done := by
  refine Service.rule (I := Sound) (R := Borne) sound_empty (ensures_program sha256)
    (fun h w i task t next r s' _ _ hs hdone hpermitted hperform => ?_)
    (fun h w event r s' _ hs hperform => ?_) hrun
  · have hstep := storeStep_perform hperform
    exact ⟨hs.step hstep fun x hx => (hpermitted.1.start x hx).begun hdone,
      borne_perform hs hperform, fun e he => hstep.borne he⟩
  · have hstep := storeStep_perform hperform
    refine ⟨hs.step hstep fun x hx => ?_, fun e he => hstep.borne he⟩
    rw [startOf_outside] at hx
    cases hx

/-- What a handler has begun, by what it has marked. -/
structure Measured (k : Operation) (done : List GoalEntry) : Prop where
  starts : ∀ effectId, done.countP (isStart effectId) ≤
    if k.begins then done.countP (isMark effectId) else 0
  idle : Beyond done → Idle done

theorem countP_isStart_of_idle {done : List GoalEntry} (hidle : Idle done) (effectId : String) :
    done.countP (isStart effectId) = 0 := by
  refine List.countP_eq_zero.mpr fun e he => ?_
  rw [isStart, hidle e he]
  simp

/-- A handler begins what it has marked, once. -/
theorem Measured.cons {k : Operation} {done : List GoalEntry} {t : GoalStep}
    {r : Except GoalError t.Reply} (hs : Measured k done) (hpermitted : Permitted done t)
    (hbegins : k.begins = false → t.startOf = none) : Measured k (⟨t, r⟩ :: done) := by
  cases hstart : t.startOf with
  | some x =>
      have hlicensed := hpermitted.start x hstart
      have hk : k.begins = true := by
        refine Bool.eq_true_of_not_eq_false fun hfalse => ?_
        rw [hbegins hfalse] at hstart
        cases hstart
      refine ⟨fun effectId => ?_, fun hbeyond => ?_⟩
      · rw [if_pos hk, List.countP_cons, countP_isStart_of_idle hlicensed.idle, zero_add]
        by_cases hid : x.effectId = effectId
        · subst hid
          obtain ⟨mark, hmem, hmark⟩ := hlicensed.marked
          have hpos : 0 < (⟨t, r⟩ :: done).countP (isMark x.effectId) :=
            List.countP_pos_iff.mpr ⟨mark, List.mem_cons_of_mem _ hmem, hmark⟩
          split
          · exact hpos
          · exact Nat.zero_le _
        · have hno : isStart effectId ⟨t, r⟩ = false := by simp [isStart, hstart, hid]
          rw [hno]
          exact Nat.zero_le _
      · rw [beyond_cons_start hstart] at hbeyond
        exact absurd hbeyond hlicensed.fresh
  | none =>
      refine ⟨fun effectId => ?_, fun hbeyond => ?_⟩
      · have hno : isStart effectId ⟨t, r⟩ = false := by simp [isStart, hstart]
        have hmono : done.countP (isMark effectId) ≤ (⟨t, r⟩ :: done).countP (isMark effectId) :=
          (List.sublist_cons_self _ _).countP_le
        rw [List.countP_cons_of_neg (by rw [hno]; decide)]
        refine (hs.starts effectId).trans ?_
        split
        · exact hmono
        · exact le_rfl
      · have hidle : Idle done := by
          by_cases hrecord : ∃ q draw, t = .recordEffect q draw
          · obtain ⟨q, draw, heq⟩ := hrecord
            exact hpermitted.record q draw heq
          · have hquiet : Quiet t := ⟨hstart, fun q draw heq => hrecord ⟨q, draw, heq⟩⟩
            exact hs.idle ((beyond_cons_of_quiet hquiet).mp hbeyond)
        intro e he
        rcases List.mem_cons.mp he with rfl | he
        · exact hstart
        · exact hidle e he

theorem measured_of_run (hrun : ((goalHost sha256).machine GoalStore.empty).RunWhere C h w) :
    ∀ task ∈ w.tasks, Measured task.request task.done :=
  Service.done_invariant (J := Measured) (ensures_program sha256)
    (fun _ => ⟨fun _ => Nat.zero_le _, fun hbeyond => absurd hbeyond not_beyond_nil⟩)
    (fun _ _ _ _ hP hJ => hJ.cons hP.1 hP.2) hrun

/-- The marks of an effect, by the handlers that begin something. -/
def marksIn (tasks : List (Task GoalStep GoalStep.Reply GoalError Operation (Option StepResult)))
    (effectId : String) : Nat :=
  (tasks.map fun task => if task.request.begins then task.done.countP (isMark effectId) else 0).sum

/-- What the handlers have begun of an effect. -/
def startsIn (tasks : List (Task GoalStep GoalStep.Reply GoalError Operation (Option StepResult)))
    (effectId : String) : Nat :=
  (tasks.map fun task => task.done.countP (isStart effectId)).sum

/-- No row of the effect says that it was dispatched. -/
def Unsent (s : GoalStore) (effectId : String) : Prop :=
  ∀ e ∈ s.effects.rows, e.effectId = effectId → e.status = .planned

theorem StoreStep.unsent {t : GoalStep} {s s' : GoalStore} (h : StoreStep t s s') {effectId : String}
    (hs : Unsent s' effectId) : Unsent s effectId := by
  intro e he hid
  obtain ⟨e', he', hafter⟩ := h.rows.kept he
  have hplanned := hs e' he' (hafter.effectId.trans hid)
  rcases hafter.status with hstatus | hstatus
  · rw [← hstatus]
    exact hplanned
  · rw [hplanned] at hstatus
    exact absurd hstatus (not_planned_allowed _)

/-- A mark that is no replay moves the effect. -/
theorem marks_of_update {s s' : GoalStore} {q : EffectUpdate} {r : Except GoalError EffectRecord}
    (hperform : perform (.updateEffect q) s = (r, s')) {effectId : String}
    (hmark : isMark effectId ⟨.updateEffect q, r⟩ = true)
    (hno : ∀ e, s.effects.find? q.effectId = some e → ¬ (e.status = .dispatched ∧ q.SameAs e)) :
    Unsent s effectId ∧ ¬ Unsent s' effectId := by
  obtain ⟨rfl, hstatus, effect, rfl⟩ := mark_of_isMark hmark
  obtain ⟨e, hfind, _, ⟨rfl, hsame, hdata⟩ | ⟨hallowed, ⟨error, heffects⟩, _⟩⟩ :=
    updateEffect_ok (Txn.unitOfWork_ok.mp hperform).1
  · exact absurd ⟨hsame.symm.trans hstatus, hdata⟩ (hno e hfind)
  · rw [hstatus] at hallowed
    have hmem := Table.mem_of_find? hfind
    have hid : e.effectId = q.effectId := Table.key_of_find? hfind
    refine ⟨fun x hx hxid => ?_, fun hunsent => ?_⟩
    · rw [Table.eq_of_mem hx hmem (hxid.trans hid.symm)]
      exact planned_of_dispatched_allowed hallowed
    · have hrow : { e with status := q.status, response := canonical q.response,
                           receiptId := q.receiptId, error := error } ∈ s'.effects.rows := by
        rw [heffects]
        refine List.mem_map.mpr ⟨e, hmem, ?_⟩
        rw [if_pos (decide_eq_true hid)]
      have hplanned := hunsent _ hrow hid
      dsimp only at hplanned
      rw [hstatus] at hplanned
      cases hplanned

/-- **An effect is marked once** by a handler that begins something, and not before it is dispatched. -/
theorem marksIn_le_one (hrun : ((goalHost sha256).machine GoalStore.empty).RunWhere NoReplay h w) :
    ∀ effectId, marksIn w.tasks effectId ≤ 1 ∧
      (Unsent w.store effectId → marksIn w.tasks effectId = 0) := by
  refine hrun.invariant (I := fun _ w => ∀ effectId, marksIn w.tasks effectId ≤ 1 ∧
    (Unsent w.store effectId → marksIn w.tasks effectId = 0)) (fun _ => ⟨Nat.zero_le _, fun _ => rfl⟩) ?_
  intro h w m o w' _ hw hno hstep effectId
  rcases Service.move_cases hstep with ⟨hstore, hsame | ⟨k, hnew⟩⟩ |
    ⟨i, task, t, next, r, rfl, htakes, hperform, -, hset⟩ | ⟨event, r, rfl, hperform, -, hsame⟩
  · rw [hstore, hsame]
    exact hw effectId
  · have hmarks : marksIn w'.tasks effectId = marksIn w.tasks effectId := by
      rw [hnew]
      simp [marksIn]
    rw [hstore, hmarks]
    exact hw effectId
  · have hsum := Service.sum_map_set
      (fun task : Task GoalStep GoalStep.Reply GoalError Operation (Option StepResult) =>
        if task.request.begins then task.done.countP (isMark effectId) else 0) htakes.under
      ⟨task.request, ⟨t, r⟩ :: task.done, next r⟩
    rw [← hset] at hsum
    change marksIn w'.tasks effectId + _ = marksIn w.tasks effectId + _ at hsum
    have hunsent : Unsent w'.store effectId → Unsent w.store effectId :=
      (storeStep_perform hperform).unsent
    by_cases hmark : task.request.begins = true ∧ isMark effectId ⟨t, r⟩ = true
    · obtain ⟨hbegins, hmark⟩ := hmark
      simp only [hbegins, if_true, List.countP_cons, hmark] at hsum
      cases t with
      | updateEffect q =>
          have hmoved := marks_of_update hperform hmark
            (hno task htakes.under hbegins q next htakes.rest (mark_of_isMark hmark).2.1)
          have hzero := (hw effectId).2 hmoved.1
          exact ⟨by omega, fun h => absurd h hmoved.2⟩
      | _ => cases hmark
    · have hsame : marksIn w'.tasks effectId = marksIn w.tasks effectId := by
        by_cases hbegins : task.request.begins = true
        · have hno' : ¬ isMark effectId ⟨t, r⟩ = true := fun h => hmark ⟨hbegins, h⟩
          simp only [hbegins, if_true, List.countP_cons, if_neg hno'] at hsum
          omega
        · simp only [hbegins] at hsum
          simpa using hsum
      rw [hsame]
      exact ⟨(hw effectId).1, fun h => (hw effectId).2 (hunsent h)⟩
  · rw [hsame]
    exact ⟨(hw effectId).1, fun h => (hw effectId).2 ((storeStep_perform hperform).unsent h)⟩

/-- What was begun, the handlers have begun. -/
theorem countP_started (hrun : ((goalHost sha256).machine GoalStore.empty).RunWhere C h w)
    (effectId : String) :
    w.store.started.countP (fun x => x.effectId = effectId) = startsIn w.tasks effectId := by
  refine hrun.invariant (I := fun _ w =>
    w.store.started.countP (fun x => x.effectId = effectId) = startsIn w.tasks effectId) rfl ?_
  intro h w m o w' _ hw _ hstep
  rcases Service.move_cases hstep with ⟨hstore, hsame | ⟨k, hnew⟩⟩ |
    ⟨i, task, t, next, r, rfl, htakes, hperform, -, hset⟩ | ⟨event, r, rfl, hperform, -, hsame⟩
  · rw [hstore, hsame]
    exact hw
  · rw [hstore, hw, hnew]
    simp [startsIn]
  · have hsum := Service.sum_map_set
      (fun task : Task GoalStep GoalStep.Reply GoalError Operation (Option StepResult) =>
        task.done.countP (isStart effectId)) htakes.under ⟨task.request, ⟨t, r⟩ :: task.done, next r⟩
    rw [← hset] at hsum
    change startsIn w'.tasks effectId + _ = startsIn w.tasks effectId + _ at hsum
    rw [(storeStep_perform hperform).started, List.countP_append, hw]
    simp only [List.countP_cons] at hsum
    cases hstart : t.startOf with
    | none =>
        simp only [isStart, hstart, Option.any_none, Bool.false_eq_true, if_false] at hsum
        simp only [Option.toList_none, List.countP_nil]
        omega
    | some x =>
        simp only [isStart, hstart, Option.any_some] at hsum
        simp only [Option.toList_some, List.countP_singleton]
        omega
  · rw [(storeStep_perform hperform).started, List.countP_append, hw, startOf_outside, hsame]
    simp

/-- **What an effect is behind is begun once.** -/
theorem started_once (hrun : ((goalHost sha256).machine GoalStore.empty).RunWhere NoReplay h w) :
    (w.store.started.map Start.slot).Nodup := by
  have hids : (w.store.started.map Start.effectId).Nodup := by
    refine List.nodup_iff_count_le_one.mpr fun effectId => ?_
    have hcount : (w.store.started.map Start.effectId).count effectId =
        w.store.started.countP fun x => x.effectId = effectId := by
      rw [List.count, List.countP_map]
      rfl
    rw [hcount, countP_started hrun]
    calc startsIn w.tasks effectId
        ≤ marksIn w.tasks effectId :=
          List.sum_le_sum fun task htask => (measured_of_run hrun task htask).starts effectId
      _ ≤ 1 := (marksIn_le_one hrun effectId).1
  have hsound := (sound_of_run hrun).1
  refine List.Nodup.map_on (fun x hx y hy hslot => ?_) (List.Nodup.of_map _ hids)
  -- Actions of one attempt and one kind are of one key, hence of one effect.
  obtain ⟨e, he, heid, hegoal, hekey⟩ := (hsound.started x hx).2
  obtain ⟨e', he', heid', hegoal', hekey'⟩ := (hsound.started y hy).2
  obtain ⟨hgoal, hstep, hattempt, hkind⟩ : x.goalId = y.goalId ∧ x.stepId = y.stepId ∧
      x.attempt = y.attempt ∧ x.kind = y.kind := by
    simpa [Start.slot] using hslot
  rw [hgoal, hstep, hattempt, hkind, hekey'] at hekey
  have heq : e = e' := List.inj_on_of_nodup_map hsound.slots he he'
    (Prod.ext (hegoal.trans (hgoal.trans hegoal'.symm)) (Except.ok.inj hekey).symm)
  have hid : x.effectId = y.effectId := by rw [← heid, ← heid', heq]
  exact List.inj_on_of_nodup_map hids hx hy hid

end Runs

/-! ## 6.  Effects are dispatched once -/

/-- **Effects are dispatched at most once.** -/
structure DispatchedOnce (w : GoalCrowd) : Prop where
  /-- For each goal, step, attempt and kind, one kernel execution or parent turn is begun at most. -/
  once : (w.store.started.map Start.slot).Nodup
  /-- What was begun has its effect, which was dispatched. -/
  dispatched : ∀ x ∈ w.store.started, Marked w.store x.effectId ∧ Behind w.store x
  /-- A handler that finds its effect beyond planned begins nothing and reports blocked. -/
  blocked : ∀ task ∈ w.tasks, Beyond task.done → Idle task.done ∧ (∀ e, task.rest ≠ .raise e) ∧
    ∀ result, task.rest = .ret result → ∃ r, result = some r ∧ r.status = .blocked

section Once

variable {sha256 : String → String} {h : GoalHistory} {w : GoalCrowd}
  {C : GoalHistory → GoalCrowd → Move Operation OutsideEvent → Prop}

theorem blocked_of_run (hrun : ((goalHost sha256).machine GoalStore.empty).RunWhere C h w) :
    ∀ task ∈ w.tasks, Beyond task.done → Idle task.done ∧ (∀ e, task.rest ≠ .raise e) ∧
      ∀ result, task.rest = .ret result → ∃ r, result = some r ∧ r.status = .blocked := by
  intro task htask hbeyond
  obtain ⟨hdone, hrest⟩ := (sound_of_run hrun).2 task htask
  have hfinished : ¬ FinishFailed task.done := fun ⟨_, _, hmem⟩ => hdone _ hmem
  refine ⟨(measured_of_run hrun task htask).idle hbeyond, fun e heq => ?_, fun result heq => ?_⟩
  · rw [heq] at hrest
    rcases hrest.1 hbeyond with ⟨r, hr, _⟩ | hfailed
    · cases hr
    · exact hfinished hfailed
  · rw [heq] at hrest
    rcases hrest.1 hbeyond with ⟨r, hr, hstatus⟩ | hfailed
    · exact ⟨r, Except.ok.inj hr, hstatus⟩
    · exact absurd hfailed hfinished

/-- What a move does to the rows of effects. -/
theorem rowsStep_move {m : Move Operation OutsideEvent} {o : Option GoalEntry} {w' : GoalCrowd}
    (hstep : (goalHost sha256).move m w = (o, w')) : RowsStep w.store w'.store := by
  rcases Service.move_cases hstep with ⟨hstore, -⟩ | ⟨i, task, t, next, r, -, -, hperform, -, -⟩ |
    ⟨event, r, -, hperform, -, -⟩
  · exact .same (by rw [hstore])
  · exact (storeStep_perform hperform).rows
  · exact (storeStep_perform hperform).rows

/-- **A settled effect stays as it is settled.** -/
theorem settled_stays {later : GoalHistory} {w' : GoalCrowd}
    (hext : ((goalHost sha256).machine GoalStore.empty).Extends C h w later w') {e : EffectRecord}
    (he : e ∈ w.store.effects.rows) (hsettled : e.status.allowed = []) :
    ∃ e' ∈ w'.store.effects.rows, e'.effectId = e.effectId ∧ e'.status = e.status := by
  refine hext.invariant (I := fun _ w' => ∃ e' ∈ w'.store.effects.rows,
    e'.effectId = e.effectId ∧ e'.status = e.status) ⟨e, he, rfl, rfl⟩ ?_
  rintro later w₁ m o w₂ - ⟨e₁, he₁, hid, hstatus⟩ - hstep
  obtain ⟨e₂, he₂, hafter⟩ := (rowsStep_move hstep).kept he₁
  refine ⟨e₂, he₂, hafter.effectId.trans hid, ?_⟩
  rcases hafter.status with hsame | hmoved
  · exact hsame.trans hstatus
  · rw [hstatus, hsettled] at hmoved
    exact absurd hmoved List.not_mem_nil

/-- **In every run without replayed marks, effects are dispatched at most once**, and in every run a
settled effect stays settled. -/
theorem effects_dispatched_once
    (hrun : ((goalHost sha256).machine GoalStore.empty).RunWhere NoReplay h w) :
    DispatchedOnce w ∧
      ∀ later w', ((goalHost sha256).machine GoalStore.empty).Extends (fun _ _ _ => True) h w later w' →
        ∀ e ∈ w.store.effects.rows, e.status.allowed = [] →
          ∃ e' ∈ w'.store.effects.rows, e'.effectId = e.effectId ∧ e'.status = e.status :=
  ⟨⟨started_once hrun, (sound_of_run hrun).1.started, blocked_of_run hrun⟩,
    fun _ _ hext _ he hsettled => settled_stays hext he hsettled⟩

end Once

/-- A handler of a python step whose code is `pass`. -/
def passStep (draw : BitVec 128) : PythonStep :=
  ⟨"pass", "", draw, .ok ⟨true, "e", 1, "r", 1, ""⟩, false⟩

/-- SHA-256 of `pass`. -/
def passSha (_ : String) : String := "d74ff0ee8da3b9806b18c877dbf29bbde50b5bd8e4dad7a3a725000feb82e8f1"

/-- The table of one goal. -/
def oneGoal : Table GoalRow String GoalRow.goalId := ⟨[⟨"g", 1⟩], by decide⟩

/-- A goal with a step in its first attempt. -/
def oneStep : Move Operation OutsideEvent := .outside (.elsewhere oneGoal [⟨"s", "g", 1⟩])

/-- The first attempt. -/
def firstAttempt : StepContext := ⟨"g", "c", "s", 1⟩

/-- Two entries for one attempt, which both see a planned effect. -/
def twoEntries : List (Move Operation OutsideEvent) :=
  [oneStep, .start (.python firstAttempt (passStep 1)), .start (.python firstAttempt (passStep 2)),
    .go 0, .go 0, .go 1, .go 1, .go 0, .go 0, .go 1, .go 1, .go 0, .go 1]

/-- **Two entries of one attempt begin its kernel execution twice.** -/
theorem kernel_started_twice :
    ∃ h w, ((goalHost passSha).machine GoalStore.empty).Run h w ∧ ¬ DispatchedOnce w := by
  refine ⟨_, _, Machine.Run.exec .start twoEntries, fun honce => ?_⟩
  have hslots : (((goalHost passSha).machine GoalStore.empty).exec
      ([], ((goalHost passSha).machine GoalStore.empty).start) twoEntries).2.store.started.map Start.slot =
        [("g", "s", 1, "kernel.execute"), ("g", "s", 1, "kernel.execute")] := by
    decide +kernel
  have hnodup := honce.once
  rw [hslots] at hnodup
  exact absurd hnodup (by decide)

/-- A task whose next step updates an effect. -/
def updatesNext : Task GoalStep GoalStep.Reply GoalError Operation (Option StepResult) → Bool
  | ⟨_, _, .call (.updateEffect _) _⟩ => true
  | _ => false

/-- A move before any effect is dispatched, or of a handler that updates none. -/
def beforeDispatch (w : GoalCrowd) (m : Move Operation OutsideEvent) : Bool :=
  (w.store.effects.rows.all fun e => e.status ≠ .dispatched) ||
    match m with
    | .go i => w.tasks[i]?.all fun task => !updatesNext task
    | _ => true

theorem noReplay_of_beforeDispatch (h : GoalHistory) (w : GoalCrowd) (m : Move Operation OutsideEvent)
    (hm : beforeDispatch w m = true) : NoReplay h w m := by
  cases m with
  | start k => trivial
  | outside event => trivial
  | go i =>
      rintro ⟨k, done, rest⟩ htask _ q next rfl _ e hfind hsent
      rcases Bool.or_eq_true_iff.mp hm with hrows | hnext
      · have hstatus := List.all_eq_true.mp hrows e (Table.mem_of_find? hfind)
        exact of_decide_eq_true hstatus hsent.1
      · dsimp only at hnext
        rw [htask] at hnext
        cases hnext

/-- One entry, until the kernel has executed. -/
def oneEntry : List (Move Operation OutsideEvent) :=
  [oneStep, .start (.python firstAttempt (passStep 1)), .go 0, .go 0, .go 0, .go 0, .go 0]

theorem effects_dispatched_once_pass :
    ∃ h w, w.store.started.map Start.slot = [("g", "s", 1, "kernel.execute")] ∧ DispatchedOnce w ∧
      ∀ later w', ((goalHost passSha).machine GoalStore.empty).Extends (fun _ _ _ => True) h w later w' →
        ∀ e ∈ w.store.effects.rows, e.status.allowed = [] →
          ∃ e' ∈ w'.store.effects.rows, e'.effectId = e.effectId ∧ e'.status = e.status :=
  ⟨_, _, by decide +kernel, effects_dispatched_once
    (Machine.RunWhere.exec_of_passes noReplay_of_beforeDispatch
      (M := (goalHost passSha).machine GoalStore.empty) .start
      (show Machine.passes _ beforeDispatch _ oneEntry = true by decide +kernel))⟩

end Goals
end VariantOne
