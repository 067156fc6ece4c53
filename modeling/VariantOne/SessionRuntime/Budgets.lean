import Mathlib.Algebra.BigOperators.Group.List.Basic
import Mathlib.Algebra.Order.BigOperators.Group.List
import VariantOne.SessionRuntime.Registry

/-!
# Continuation budgets

The usage of a run is charged to its chat once: the charge table remembers the run,
also over a reset of the budget.  The totals in the chat's record are kept
incrementally, and a reset empties them.

`firstCharges` reads off a history which runs were charged for the first time since
the last reset; the totals are the sums of these charges (`Balanced`).  Amounts are
exact, and what a JSON column holds is taken as written.

`budget_accounts` is the result.  A charge, a repeat, a refusal and a reset each keep the books balanced,
and the induction runs over the calls; a run without an id is not remembered, so its charge is added as
often as it comes (`blank_run_charged_again`).
-/

namespace VariantOne
namespace SessionRuntime

/-! ## 1.  Charging -/

/-- `_BUDGET_KEYS` -/
def budgetKeys : List String := ["provider_calls", "tokens", "cost_usd", "wall_time_s"]

/-- `amounts.get(key) or 0.0` -/
def amount (amounts : Amounts) (key : String) : ℚ := (Dict.get? amounts key).getD 0

/-- The usage of a run, clamped. -/
def cleanUsage (usage : List (String × Option ℚ)) : Amounts :=
  budgetKeys.map fun key => (key, max 0 ((Dict.get? usage key).join.getD 0))

/-- The limits of a budget, clamped. -/
def cleanLimits (limits : List (String × Option ℚ)) : Amounts :=
  budgetKeys.filterMap fun key =>
    (Dict.get? limits key).join.map fun limit => (key, max 0 limit)

/-- A row of `astb_budget_charge`. -/
structure BudgetCharge where
  chatId : String
  runId : String
  usage : Amounts
  eventId : String
  createdAt : ℚ

def BudgetCharge.key (c : BudgetCharge) : String × String := (c.chatId, c.runId)

/-- The registry with the charge table of its store. -/
structure Accounts where
  registry : Registry
  charges : Table BudgetCharge (String × String) BudgetCharge.key

/-- What a new budget writes. -/
def limitsChange (limits : Amounts) (now : ℚ) (r : ChatRuntimeRecord) : ChatRuntimeRecord :=
  { r with
    continuationState := "ready", budgetLimits := limits, budgetUsed := [], updatedAt := now,
    version := r.version + 1 }

theorem chatId_limitsChange (limits : Amounts) (now : ℚ) (r : ChatRuntimeRecord) :
    (limitsChange limits now r).chatId = r.chatId := rfl

/-- `used[key] = used.get(key) + value`, for every key. -/
def addUsage (used usage : Amounts) : Amounts :=
  usage.foldl (fun used p => Dict.set used p.1 (amount used p.1 + p.2)) used

/-- A limit has been reached. -/
def exhausted (limits used : Amounts) : Bool :=
  limits.any fun (key, limit) =>
    budgetKeys.contains key && decide (0 < limit) && decide (limit ≤ amount used key)

/-- What a charge writes. -/
def usageChange (usage : Amounts) (now : ℚ) (r : ChatRuntimeRecord) : ChatRuntimeRecord :=
  { r with
    budgetUsed := addUsage r.budgetUsed usage
    continuationState :=
      if exhausted r.budgetLimits (addUsage r.budgetUsed usage) then "paused_budget_exhausted"
      else r.continuationState
    updatedAt := now
    version := r.version + 1 }

theorem chatId_usageChange (usage : Amounts) (now : ℚ) (r : ChatRuntimeRecord) :
    (usageChange usage now r).chatId = r.chatId := rfl

/-- The identity a run is charged under: a run without one is charged on its own. -/
def stableRunId (runId uuid : String) : String :=
  if strip runId = "" then "unkeyed:" ++ uuid else strip runId

/-- `set_budget` -/
def setBudget (chatId : String) (limits : List (String × Option ℚ)) (identity : RuntimeIdentity)
    (now : ℚ) (s : Accounts) : RuntimeReply × Accounts :=
  match ensureRuntime chatId identity now s.registry.runtimes with
  | (.error e, runtimes) => (.raised e, { s with registry.runtimes := runtimes })
  | (.ok record, runtimes) =>
      let updated := updateRuntime runtimes record (limitsChange (cleanLimits limits) now)
        (chatId_limitsChange (cleanLimits limits) now)
      (.recorded updated.1, { s with
        registry := { s.registry.setLive chatId (s.registry.liveOf chatId) with
          runtimes := updated.2 } })

/-- `record_usage` -/
def recordUsage (chatId runId : String) (usage : List (String × Option ℚ)) (uuid eventId : String)
    (now : ℚ) (s : Accounts) : RuntimeReply × Accounts :=
  match s.registry.runtimes.find? chatId with
  | none => (.raised (.lookup s!"unknown chat runtime: {chatId}"), s)
  | some row =>
      match s.charges.find? (chatId, stableRunId runId uuid) with
      | some prior =>
          if prior.usage ≠ cleanUsage usage then
            (.raised (.runtime "budget run identity was reused with different usage"), s)
          else (.recorded row, s)
      | none =>
          match s.charges.insert?
              ⟨chatId, stableRunId runId uuid, cleanUsage usage, eventId, now⟩ with
          | none => (.nothing, s)
          | some charges =>
              let updated := updateRuntime s.registry.runtimes row
                (usageChange (cleanUsage usage) now) (chatId_usageChange (cleanUsage usage) now)
              (.recorded updated.1,
                { registry := { s.registry with runtimes := updated.2 }, charges := charges })

/-- `try_reserve_run`, undisturbed: both of its parts. -/
def tryReserveRun (chatId attachmentId : String) (background requireEmptyQueue : Bool)
    (identity : RuntimeIdentity) (uuid : String) (queuedInputs : Nat) (now : ℚ) (r : Registry) :
    RuntimeReply × Registry :=
  match r.reserveCheck chatId attachmentId background requireEmptyQueue identity now with
  | (.nothing, checked) =>
      match checked.reserving.getLast? with
      | none => (.nothing, checked)
      | some c => ({ checked with reserving := r.reserving }).reserve c uuid queuedInputs now
  | (reply, r) => (reply, r)

/-- One call, from its start to its end. -/
inductive AccountCall where
  | setBudget (chatId : String) (limits : List (String × Option ℚ)) (identity : RuntimeIdentity)
      (now : ℚ)
  | recordUsage (chatId runId : String) (usage : List (String × Option ℚ)) (uuid eventId : String)
      (now : ℚ)
  | tryReserve (chatId attachmentId : String) (background requireEmptyQueue : Bool)
      (identity : RuntimeIdentity) (uuid : String) (queuedInputs : Nat) (now : ℚ)
  | finish (admissionId : String)

def Accounts.step : AccountCall → Accounts → RuntimeReply × Accounts
  | .setBudget chatId limits identity now, s => setBudget chatId limits identity now s
  | .recordUsage chatId runId usage uuid eventId now, s =>
      recordUsage chatId runId usage uuid eventId now s
  | .tryReserve chatId attachmentId background requireEmptyQueue identity uuid queuedInputs now, s =>
      let (reply, r) := tryReserveRun chatId attachmentId background requireEmptyQueue identity uuid
        queuedInputs now s.registry
      (reply, { s with registry := r })
  | .finish admissionId, s => (.nothing, { s with registry := s.registry.finish admissionId })

/-- The calls on an empty store, one after the other. -/
def accounts : Machine Accounts AccountCall RuntimeReply :=
  ⟨⟨Registry.withRuntimes Table.empty, Table.empty⟩, Accounts.step⟩

/-! ## 2.  Totals -/

theorem amount_set (used : Amounts) (key : String) (value : ℚ) (k : String) :
    amount (Dict.set used key value) k = if k = key then value else amount used k := by
  unfold amount
  by_cases h : k = key
  · rw [if_pos h, h, Dict.get?_set_self]
    rfl
  · rw [if_neg h, Dict.get?_set_of_ne (Ne.symm h)]

theorem amount_cons (p : String × ℚ) (amounts : Amounts) (k : String) :
    amount (p :: amounts) k = if p.1 = k then p.2 else amount amounts k := by
  unfold amount
  rw [Dict.get?_cons]
  split <;> rfl

/-- Adding the usage of a run adds its amounts. -/
theorem amount_addUsage {used usage : Amounts} (h : Dict.WF usage) (k : String) :
    amount (addUsage used usage) k = amount used k + amount usage k := by
  induction usage generalizing used with
  | nil => simp [addUsage, amount]
  | cons p usage ih =>
      have hfold : addUsage used (p :: usage) =
          addUsage (Dict.set used p.1 (amount used p.1 + p.2)) usage := rfl
      rw [hfold, ih h.tail, amount_set, amount_cons]
      by_cases hk : k = p.1
      · have hnone : amount usage k = 0 := by
          unfold amount
          rw [hk, Dict.get?_eq_none_iff.mpr h.head_notMem]
          rfl
        rw [if_pos hk, if_pos hk.symm, hnone, hk, add_zero]
      · rw [if_neg hk, if_neg (Ne.symm hk)]

theorem wf_cleanUsage (usage : List (String × Option ℚ)) : Dict.WF (cleanUsage usage) := by
  have hkeys : Dict.keys (cleanUsage usage) = budgetKeys := rfl
  unfold Dict.WF
  rw [hkeys]
  decide

theorem amount_cleanUsage_nonneg (usage : List (String × Option ℚ)) (k : String) :
    0 ≤ amount (cleanUsage usage) k := by
  unfold amount
  cases hget : Dict.get? (cleanUsage usage) k with
  | none => exact le_refl _
  | some v =>
      obtain ⟨key, -, hkey⟩ := List.mem_map.mp (Dict.mem_of_get? hget)
      rw [Option.getD_some, ← (Prod.mk.inj hkey).2]
      exact le_max_left _ _

/-! ## 3.  What a history has charged -/

abbrev AccountHistory := List (AccountCall × RuntimeReply)

/-- The call gave the chat a new budget: its limits. -/
def resetOf (chatId : String) : AccountCall × RuntimeReply → Option Amounts
  | (.setBudget chat limits _ _, .recorded _) =>
      if chat = chatId then some (cleanLimits limits) else none
  | _ => none

/-- The call charged a run to the chat, or repeated a charge: the run and its usage. -/
def chargeOf (chatId : String) : AccountCall × RuntimeReply → Option (String × Amounts)
  | (.recordUsage chat runId usage uuid _ _, .recorded _) =>
      if chat = chatId then some (stableRunId runId uuid, cleanUsage usage) else none
  | _ => none

/-- What a run has been charged. -/
def charged? (chatId runId : String) (h : AccountHistory) : Option Amounts :=
  Dict.get? (h.filterMap (chargeOf chatId)) runId

/-- The runs charged for the first time since the last reset. -/
def firstCharges (chatId : String) : AccountHistory → List (String × Amounts)
  | [] => []
  | e :: h =>
      match resetOf chatId e, chargeOf chatId e with
      | some _, _ => []
      | none, none => firstCharges chatId h
      | none, some c =>
          if (charged? chatId c.1 h).isSome then firstCharges chatId h
          else c :: firstCharges chatId h

/-- The limits of the last reset. -/
def limitsOf (chatId : String) (h : AccountHistory) : Amounts :=
  (h.findSome? (resetOf chatId)).getD []

/-- What the runs have used of one key. -/
def spent (charges : List (String × Amounts)) (key : String) : ℚ :=
  (charges.map fun c => amount c.2 key).sum

/-- **The books of a chat are balanced.** -/
structure Balanced (chatId : String) (h : AccountHistory) (s : Accounts) : Prop where
  charged : ∀ run, (s.charges.find? (chatId, run)).map (·.usage) = charged? chatId run h
  used : ∀ row, s.registry.runtimes.find? chatId = some row →
    ∀ key, amount row.budgetUsed key = spent (firstCharges chatId h) key
  limits : ∀ row, s.registry.runtimes.find? chatId = some row →
    row.budgetLimits = limitsOf chatId h
  active : ∀ row, s.registry.runtimes.find? chatId = some row → row.lifecycleState = .active
  /-- A chat without a record has been charged nothing. -/
  unknown : s.registry.runtimes.find? chatId = none →
    firstCharges chatId h = [] ∧ limitsOf chatId h = [] ∧ ∀ run, charged? chatId run h = none

theorem charged?_cons (chatId runId : String) (e : AccountCall × RuntimeReply)
    (h : AccountHistory) :
    charged? chatId runId (e :: h) =
      match chargeOf chatId e with
      | none => charged? chatId runId h
      | some c => if c.1 = runId then some c.2 else charged? chatId runId h := by
  unfold charged?
  cases hc : chargeOf chatId e with
  | none => rw [List.filterMap_cons_none hc]
  | some c => rw [List.filterMap_cons_some hc, Dict.get?_cons]

theorem limitsOf_cons (chatId : String) (e : AccountCall × RuntimeReply) (h : AccountHistory) :
    limitsOf chatId (e :: h) = (resetOf chatId e).getD (limitsOf chatId h) := by
  unfold limitsOf
  cases hr : resetOf chatId e with
  | none => rw [List.findSome?_cons_of_isNone (by simp [hr])]; rfl
  | some limits => rw [List.findSome?_cons, hr]; rfl

theorem firstCharges_quiet {chatId : String} {e : AccountCall × RuntimeReply}
    (h : AccountHistory) (hreset : resetOf chatId e = none) (hcharge : chargeOf chatId e = none) :
    firstCharges chatId (e :: h) = firstCharges chatId h := by
  rw [firstCharges, hreset, hcharge]

theorem firstCharges_reset {chatId : String} {e : AccountCall × RuntimeReply} {limits : Amounts}
    (h : AccountHistory) (hreset : resetOf chatId e = some limits) :
    firstCharges chatId (e :: h) = [] := by
  rw [firstCharges, hreset]

theorem firstCharges_charge {chatId : String} {e : AccountCall × RuntimeReply}
    {c : String × Amounts} (h : AccountHistory) (hreset : resetOf chatId e = none)
    (hcharge : chargeOf chatId e = some c) :
    firstCharges chatId (e :: h) = if (charged? chatId c.1 h).isSome then firstCharges chatId h
      else c :: firstCharges chatId h := by
  rw [firstCharges, hreset, hcharge]

/-- The charged runs are distinct. -/
theorem nodup_firstCharges (chatId : String) (h : AccountHistory) :
    ((firstCharges chatId h).map Prod.fst).Nodup ∧
      ∀ c ∈ firstCharges chatId h, (charged? chatId c.1 h).isSome := by
  induction h with
  | nil => exact ⟨List.nodup_nil, fun c hc => absurd hc (by simp [firstCharges])⟩
  | cons e h ih =>
      obtain ⟨hnodup, hcharged⟩ := ih
      rw [firstCharges]
      have hkeep : ∀ run, (charged? chatId run h).isSome → (charged? chatId run (e :: h)).isSome := by
        intro run hrun
        rw [charged?_cons]
        split
        · exact hrun
        · split
          · rfl
          · exact hrun
      split
      · exact ⟨List.nodup_nil, fun c hc => absurd hc (by simp)⟩
      · exact ⟨hnodup, fun c hc => hkeep _ (hcharged c hc)⟩
      · rename_i c _ hc
        split
        · exact ⟨hnodup, fun c hc => hkeep _ (hcharged c hc)⟩
        · rename_i hnew
          constructor
          · rw [List.map_cons, List.nodup_cons]
            refine ⟨fun hmem => ?_, hnodup⟩
            obtain ⟨c', hc', heq⟩ := List.mem_map.mp hmem
            exact hnew (heq ▸ hcharged c' hc')
          · intro c' hc'
            rcases List.mem_cons.mp hc' with rfl | hc'
            · rw [charged?_cons, hc]
              simp
            · exact hkeep _ (hcharged c' hc')

/-! ## 4.  Each call keeps the books balanced -/

/-- A row is kept, or it is new. -/
def RowKept (chatId : String) (t t' : RuntimeTable) : Prop :=
  t'.find? chatId = t.find? chatId ∨
    t.find? chatId = none ∧ ∃ identity now, t'.find? chatId = some (newRuntime chatId identity now)

theorem rowKept_ensureRuntime (chat chatId : String) (identity : RuntimeIdentity) (now : ℚ)
    (t : RuntimeTable) : RowKept chat t (ensureRuntime chatId identity now t).2 := by
  unfold ensureRuntime
  split
  · split <;> exact .inl rfl
  · rename_i hnone
    split
    · rename_i t' hinsert
      have hfind := Table.find?_of_rows_append (Table.insert?_eq_some hinsert).2 chat
      have hkey : (newRuntime chatId identity now).chatId = chatId := rfl
      rw [hkey] at hfind
      by_cases heq : chatId = chat
      · subst heq
        exact .inr ⟨hnone, identity, now, by rw [hfind, if_pos rfl]⟩
      · exact .inl (by rw [hfind, if_neg heq])
    · exact .inl rfl

section Steps

variable {chatId : String} {h : AccountHistory} {s s' : Accounts} {e : AccountCall × RuntimeReply}

/-- A call that charges and resets nothing for this chat. -/
theorem Balanced.quiet (hs : Balanced chatId h s) (hreset : resetOf chatId e = none)
    (hcharge : chargeOf chatId e = none)
    (hrow : RowKept chatId s.registry.runtimes s'.registry.runtimes)
    (hcharges : ∀ run, s'.charges.find? (chatId, run) = s.charges.find? (chatId, run)) :
    Balanced chatId (e :: h) s' := by
  have hfirst := firstCharges_quiet h hreset hcharge
  have hlimits : limitsOf chatId (e :: h) = limitsOf chatId h := by
    rw [limitsOf_cons, hreset]
    rfl
  constructor
  · intro run
    rw [hcharges, charged?_cons, hcharge]
    exact hs.charged run
  · intro row hfind key
    rw [hfirst]
    rcases hrow with hsame | ⟨hnone, identity, now, hnew⟩
    · exact hs.used row (hsame ▸ hfind) key
    · obtain rfl := Option.some.inj (hnew.symm.trans hfind)
      rw [(hs.unknown hnone).1]
      rfl
  · intro row hfind
    rw [hlimits]
    rcases hrow with hsame | ⟨hnone, identity, now, hnew⟩
    · exact hs.limits row (hsame ▸ hfind)
    · obtain rfl := Option.some.inj (hnew.symm.trans hfind)
      rw [(hs.unknown hnone).2.1]
      rfl
  · intro row hfind
    rcases hrow with hsame | ⟨-, identity, now, hnew⟩
    · exact hs.active row (hsame ▸ hfind)
    · obtain rfl := Option.some.inj (hnew.symm.trans hfind)
      rfl
  · intro hnone
    rw [hfirst, hlimits]
    rcases hrow with hsame | ⟨-, identity, now, hnew⟩
    · obtain ⟨hfirst, hlimits, hunknown⟩ := hs.unknown (hsame ▸ hnone)
      refine ⟨hfirst, hlimits, fun run => ?_⟩
      rw [charged?_cons, hcharge]
      exact hunknown run
    · exact absurd (hnew.symm.trans hnone) (by simp)

/-- A new budget empties the totals. -/
theorem Balanced.setBudget {chat : String} {limits : List (String × Option ℚ)}
    {identity : RuntimeIdentity} {now : ℚ} {reply : RuntimeReply} (hs : Balanced chatId h s)
    (hstep : setBudget chat limits identity now s = (reply, s')) :
    Balanced chatId ((.setBudget chat limits identity now, reply) :: h) s' := by
  have hkept := rowKept_ensureRuntime chatId chat identity now s.registry.runtimes
  unfold SessionRuntime.setBudget at hstep
  split at hstep
  · rename_i e runtimes hensure
    obtain ⟨rfl, rfl⟩ := Prod.mk.inj hstep
    rw [hensure] at hkept
    exact hs.quiet rfl rfl hkept fun _ => rfl
  · rename_i record runtimes hensure
    obtain ⟨rfl, rfl⟩ := Prod.mk.inj hstep
    rw [hensure] at hkept
    have hrow := ensureRuntime_eq_ok hensure
    have hfind := find?_updateRuntime (chatId_limitsChange (cleanLimits limits) now) hrow chatId
    have hreset : ∀ r, resetOf chatId (AccountCall.setBudget chat limits identity now,
        .recorded r) = if chat = chatId then some (cleanLimits limits) else none := fun _ => rfl
    by_cases heq : chat = chatId
    · subst heq
      rw [if_pos rfl] at hfind
      have hreset := fun r => (hreset r).trans (if_pos rfl)
      have hactive : record.lifecycleState = .active := by
        rcases hkept with hsame | ⟨-, identity, now, hnew⟩
        · exact hs.active record (hsame ▸ hrow)
        · obtain rfl := Option.some.inj (hnew.symm.trans hrow)
          rfl
      constructor
      · intro run
        rw [charged?_cons]
        exact hs.charged run
      · intro row hfound key
        obtain rfl := Option.some.inj (hfind.symm.trans hfound)
        rw [firstCharges_reset h (hreset _)]
        rfl
      · intro row hfound
        obtain rfl := Option.some.inj (hfind.symm.trans hfound)
        rw [limitsOf_cons, hreset]
        rfl
      · intro row hfound
        obtain rfl := Option.some.inj (hfind.symm.trans hfound)
        exact hactive
      · intro hnone
        exact absurd (hfind.symm.trans hnone) (by simp)
    · rw [if_neg heq] at hfind
      have hreset := fun r => (hreset r).trans (if_neg heq)
      refine hs.quiet (hreset _) rfl ?_ fun _ => rfl
      unfold RowKept at hkept ⊢
      rw [hfind]
      exact hkept

/-- A repeated charge. -/
theorem Balanced.repeated {chat run : String} {usage : Amounts} {prior : BudgetCharge}
    (hs : Balanced chatId h s)
    (hcharge : chargeOf chatId e = if chat = chatId then some (run, usage) else none)
    (hprior : s.charges.find? (chat, run) = some prior) (heq : prior.usage = usage)
    (hreset : resetOf chatId e = none) : Balanced chatId (e :: h) s := by
  by_cases hchat : chat = chatId
  · subst hchat
    rw [if_pos rfl] at hcharge
    have hknown : charged? chat run h = some usage := by
      rw [← hs.charged run, hprior, ← heq]
      rfl
    have hfirst : firstCharges chat (e :: h) = firstCharges chat h := by
      rw [firstCharges_charge h hreset hcharge, hknown]
      rfl
    have hlimits : limitsOf chat (e :: h) = limitsOf chat h := by
      rw [limitsOf_cons, hreset]
      rfl
    constructor
    · intro run'
      rw [charged?_cons, hcharge]
      dsimp only
      split
      · rename_i hrun
        rw [hs.charged run', ← hrun, hknown]
      · exact hs.charged run'
    · rw [hfirst]
      exact hs.used
    · rw [hlimits]
      exact hs.limits
    · exact hs.active
    · intro hnone
      exact absurd (hknown.symm.trans ((hs.unknown hnone).2.2 run)) (by simp)
  · rw [if_neg hchat] at hcharge
    exact hs.quiet hreset hcharge (.inl rfl) fun _ => rfl

/-- A new charge. -/
theorem Balanced.charge {chat run : String} {usage : List (String × Option ℚ)} {eventId : String}
    {now : ℚ} {row : ChatRuntimeRecord}
    {charges : Table BudgetCharge (String × String) BudgetCharge.key} (hs : Balanced chatId h s)
    (hcharge : chargeOf chatId e = if chat = chatId then some (run, cleanUsage usage) else none)
    (hreset : resetOf chatId e = none)
    (hrow : s.registry.runtimes.find? chat = some row)
    (hinsert : s.charges.insert? ⟨chat, run, cleanUsage usage, eventId, now⟩ = some charges) :
    Balanced chatId (e :: h)
      { registry := { s.registry with
          runtimes := (updateRuntime s.registry.runtimes row (usageChange (cleanUsage usage) now)
            (chatId_usageChange (cleanUsage usage) now)).2 }
        charges := charges } := by
  obtain ⟨hnew, hrows⟩ := Table.insert?_eq_some hinsert
  have hkey : (⟨chat, run, cleanUsage usage, eventId, now⟩ : BudgetCharge).key = (chat, run) := rfl
  have hcharges := Table.find?_of_rows_append hrows
  have hfind := find?_updateRuntime (chatId_usageChange (cleanUsage usage) now) hrow chatId
  rw [hkey] at hnew hcharges
  by_cases hchat : chat = chatId
  · subst hchat
    rw [if_pos rfl] at hfind hcharge
    have hunknown : charged? chat run h = none := by
      rw [← hs.charged run, hnew]
      rfl
    have hfirst : firstCharges chat (e :: h) = (run, cleanUsage usage) :: firstCharges chat h := by
      rw [firstCharges_charge h hreset hcharge, hunknown]
      rfl
    have hlimits : limitsOf chat (e :: h) = limitsOf chat h := by
      rw [limitsOf_cons, hreset]
      rfl
    constructor
    · intro run'
      rw [hcharges, charged?_cons, hcharge]
      dsimp only
      by_cases hrun : run = run'
      · rw [if_pos hrun, if_pos (by rw [hrun])]
        rfl
      · rw [if_neg hrun, if_neg fun heq => hrun (Prod.mk.inj heq).2]
        exact hs.charged run'
    · intro row' hfound key
      obtain rfl := Option.some.inj (hfind.symm.trans hfound)
      rw [hfirst]
      calc amount (addUsage row.budgetUsed (cleanUsage usage)) key
          = amount row.budgetUsed key + amount (cleanUsage usage) key :=
            amount_addUsage (wf_cleanUsage usage) key
        _ = amount (cleanUsage usage) key + spent (firstCharges chat h) key := by
            rw [hs.used row hrow key, add_comm]
    · intro row' hfound
      obtain rfl := Option.some.inj (hfind.symm.trans hfound)
      rw [hlimits]
      exact hs.limits row hrow
    · intro row' hfound
      obtain rfl := Option.some.inj (hfind.symm.trans hfound)
      exact hs.active row hrow
    · intro hnone
      exact absurd (hfind.symm.trans hnone) (by simp)
  · rw [if_neg hchat] at hfind hcharge
    refine hs.quiet hreset hcharge (.inl hfind) fun run' => ?_
    rw [hcharges, if_neg fun heq => hchat (Prod.mk.inj heq).1]

/-- A charge is added once; a repeated run changes nothing. -/
theorem Balanced.recordUsage {chat runId : String} {usage : List (String × Option ℚ)}
    {uuid eventId : String} {now : ℚ} {reply : RuntimeReply} (hs : Balanced chatId h s)
    (hstep : recordUsage chat runId usage uuid eventId now s = (reply, s')) :
    Balanced chatId ((.recordUsage chat runId usage uuid eventId now, reply) :: h) s' := by
  have hcharge : ∀ r, chargeOf chatId (AccountCall.recordUsage chat runId usage uuid eventId now,
      .recorded r) = if chat = chatId then some (stableRunId runId uuid, cleanUsage usage)
        else none := fun _ => rfl
  unfold SessionRuntime.recordUsage at hstep
  generalize stableRunId runId uuid = run at hstep hcharge
  split at hstep
  · obtain ⟨rfl, rfl⟩ := Prod.mk.inj hstep
    exact hs.quiet rfl rfl (.inl rfl) fun _ => rfl
  · rename_i row hrow
    split at hstep
    · rename_i prior hprior
      split at hstep
      · obtain ⟨rfl, rfl⟩ := Prod.mk.inj hstep
        exact hs.quiet rfl rfl (.inl rfl) fun _ => rfl
      · rename_i heq
        obtain ⟨rfl, rfl⟩ := Prod.mk.inj hstep
        exact hs.repeated (hcharge row) hprior (not_not.mp heq) rfl
    · rename_i hprior
      split at hstep
      · obtain ⟨rfl, rfl⟩ := Prod.mk.inj hstep
        exact hs.quiet rfl rfl (.inl rfl) fun _ => rfl
      · rename_i charges hinsert
        obtain ⟨rfl, rfl⟩ := Prod.mk.inj hstep
        exact hs.charge (hcharge _) rfl hrow hinsert

/-- The guarded section of an admission leaves the records alone. -/
theorem runtimes_reserve (r : Registry) (c : ReserveCall) (uuid : String) (queuedInputs : Nat)
    (now : ℚ) : (r.reserve c uuid queuedInputs now).2.runtimes = r.runtimes := by
  unfold Registry.reserve
  dsimp only
  split_ifs <;> rfl

theorem rowKept_tryReserveRun (chat chatId attachmentId : String)
    (background requireEmptyQueue : Bool) (identity : RuntimeIdentity) (uuid : String)
    (queuedInputs : Nat) (now : ℚ) (r : Registry) :
    RowKept chat r.runtimes (tryReserveRun chatId attachmentId background requireEmptyQueue
      identity uuid queuedInputs now r).2.runtimes := by
  have hkept := rowKept_ensureRuntime chat chatId identity now r.runtimes
  have hcheck : (r.reserveCheck chatId attachmentId background requireEmptyQueue identity
      now).2.runtimes = (ensureRuntime chatId identity now r.runtimes).2 := by
    unfold Registry.reserveCheck
    split
    · rename_i hensure
      rw [hensure]
    · rename_i hensure
      split <;> rw [hensure]
  rw [← hcheck] at hkept
  unfold tryReserveRun
  split
  · rename_i checked hchecked
    rw [hchecked] at hkept
    split
    · exact hkept
    · rw [runtimes_reserve]
      exact hkept
  · rename_i hchecked
    rw [hchecked] at hkept
    exact hkept

theorem runtimes_finish (r : Registry) (admissionId : String) :
    (r.finish admissionId).runtimes = r.runtimes := by
  unfold Registry.finish
  split
  · rfl
  · dsimp only
    split <;> rfl

theorem Balanced.step {c : AccountCall} {reply : RuntimeReply} (hs : Balanced chatId h s)
    (hstep : Accounts.step c s = (reply, s')) : Balanced chatId ((c, reply) :: h) s' := by
  cases c with
  | setBudget chat limits identity now => exact hs.setBudget hstep
  | recordUsage chat runId usage uuid eventId now => exact hs.recordUsage hstep
  | tryReserve chat attachmentId background requireEmptyQueue identity uuid queuedInputs now =>
      obtain ⟨rfl, rfl⟩ := Prod.mk.inj hstep
      exact hs.quiet rfl rfl (rowKept_tryReserveRun chatId chat attachmentId background
        requireEmptyQueue identity uuid queuedInputs now s.registry) fun _ => rfl
  | finish admissionId =>
      obtain ⟨rfl, rfl⟩ := Prod.mk.inj hstep
      exact hs.quiet rfl rfl (.inl (by rw [runtimes_finish])) fun _ => rfl

end Steps

/-- **In every run the books of every chat are balanced.** -/
theorem balanced_of_run {h : AccountHistory} {s : Accounts} (hrun : accounts.Run h s)
    (chatId : String) : Balanced chatId h s := by
  refine hrun.invariant (I := Balanced chatId) ?_ fun h s c reply s' _ hs hstep => hs.step hstep
  constructor
  · intro run
    rfl
  · intro row hfind
    exact absurd hfind (by simp [accounts, Registry.withRuntimes])
  · intro row hfind
    exact absurd hfind (by simp [accounts, Registry.withRuntimes])
  · intro row hfind
    exact absurd hfind (by simp [accounts, Registry.withRuntimes])
  · intro _
    exact ⟨rfl, rfl, fun _ => rfl⟩

/-! ## 5.  Repeats and refusals -/

/-- A limit of the chat has been reached. -/
def LimitReached (chatId : String) (h : AccountHistory) : Prop :=
  ∃ p ∈ limitsOf chatId h, 0 < p.2 ∧ p.2 ≤ spent (firstCharges chatId h) p.1

theorem amount_chargeOf_nonneg {chatId : String} {e : AccountCall × RuntimeReply}
    {c : String × Amounts} (h : chargeOf chatId e = some c) (key : String) :
    0 ≤ amount c.2 key := by
  unfold chargeOf at h
  split at h
  · split at h
    · rw [← Option.some.inj h]
      exact amount_cleanUsage_nonneg _ key
    · exact absurd h (by simp)
  · exact absurd h (by simp)

/-- A limit that has been reached stays reached until the next reset. -/
theorem LimitReached.append {chatId : String} {later h : AccountHistory}
    (hreached : LimitReached chatId h) (hlater : ∀ e ∈ later, resetOf chatId e = none) :
    LimitReached chatId (later ++ h) := by
  induction later with
  | nil => exact hreached
  | cons e later ih =>
      obtain ⟨p, hp, hpos, hle⟩ := ih fun e he => hlater e (List.mem_cons_of_mem _ he)
      have hreset := hlater e List.mem_cons_self
      refine ⟨p, ?_, hpos, hle.trans ?_⟩
      · rw [List.cons_append, limitsOf_cons, hreset]
        exact hp
      · rw [List.cons_append]
        cases hcharge : chargeOf chatId e with
        | none => rw [firstCharges_quiet _ hreset hcharge]
        | some c =>
            rw [firstCharges_charge _ hreset hcharge]
            split
            · exact le_refl _
            · exact le_add_of_nonneg_left (amount_chargeOf_nonneg hcharge p.1)

section Balances

variable {chatId : String} {h : AccountHistory} {s : Accounts}

theorem Balanced.budgetAllows_eq_false (hs : Balanced chatId h s) (hreached : LimitReached chatId h)
    {row : ChatRuntimeRecord} (hrow : s.registry.runtimes.find? chatId = some row) :
    budgetAllows row = false := by
  obtain ⟨⟨key, limit⟩, hp, hpos, hle⟩ := hreached
  rw [← hs.limits row hrow] at hp
  rw [← hs.used row hrow] at hle
  have hall : (row.budgetLimits.all fun (key, limit) =>
      !(decide (0 < limit) && decide (limit ≤ (Dict.get? row.budgetUsed key).getD 0))) = false := by
    refine List.all_eq_false.mpr ⟨(key, limit), hp, ?_⟩
    unfold amount at hle
    dsimp only at hpos hle ⊢
    rw [decide_eq_true hpos, decide_eq_true hle]
    simp
  unfold budgetAllows
  rw [hall, Bool.and_false]

/-- An exhausted chat admits no run. -/
theorem Balanced.refused (hs : Balanced chatId h s) (hreached : LimitReached chatId h)
    (attachmentId : String) (background requireEmptyQueue : Bool) (identity : RuntimeIdentity)
    (uuid : String) (queuedInputs : Nat) (now : ℚ) :
    ∃ r, tryReserveRun chatId attachmentId background requireEmptyQueue identity uuid queuedInputs
        now s.registry = (.raised (.budgetExhausted
          "chat continuation is paused because its admitted budget is exhausted"), r) ∧
      r.reservations = s.registry.reservations := by
  have hsome : ∃ row, s.registry.runtimes.find? chatId = some row := by
    cases hrow : s.registry.runtimes.find? chatId with
    | some row => exact ⟨row, rfl⟩
    | none =>
        obtain ⟨p, hp, -, -⟩ := hreached
        rw [(hs.unknown hrow).2.1] at hp
        exact absurd hp (by simp)
  obtain ⟨row, hrow⟩ := hsome
  have hlive : row.deleted = false := by
    unfold ChatRuntimeRecord.deleted
    rw [hs.active row hrow]
    rfl
  have hensure : ensureRuntime chatId identity now s.registry.runtimes =
      (.ok row, s.registry.runtimes) := by
    unfold ensureRuntime
    rw [hrow]
    dsimp only
    rw [hlive]
    rfl
  unfold tryReserveRun Registry.reserveCheck
  rw [hensure]
  dsimp only
  rw [hs.budgetAllows_eq_false hreached hrow]
  exact ⟨_, rfl, rfl⟩

/-- A run that has been charged is not charged again. -/
theorem Balanced.recordUsage_charged (hs : Balanced chatId h s) {runId uuid : String}
    {charged : Amounts} (hcharged : charged? chatId (stableRunId runId uuid) h = some charged)
    (usage : List (String × Option ℚ)) (eventId : String) (now : ℚ) :
    ∃ row, s.registry.runtimes.find? chatId = some row ∧
      SessionRuntime.recordUsage chatId runId usage uuid eventId now s =
        (if cleanUsage usage = charged then .recorded row
          else .raised (.runtime "budget run identity was reused with different usage"), s) := by
  have hprior := (hs.charged (stableRunId runId uuid)).trans hcharged
  obtain ⟨prior, hfind, rfl⟩ := Option.map_eq_some_iff.mp hprior
  cases hrow : s.registry.runtimes.find? chatId with
  | none => exact absurd (hcharged.symm.trans ((hs.unknown hrow).2.2 _)) (by simp)
  | some row =>
      refine ⟨row, rfl, ?_⟩
      unfold SessionRuntime.recordUsage
      rw [hrow]
      dsimp only
      rw [hfind]
      dsimp only
      by_cases heq : cleanUsage usage = prior.usage
      · rw [if_pos heq, if_neg (not_not.mpr heq.symm)]
      · rw [if_neg heq, if_pos (Ne.symm heq)]

end Balances

/-- **Continuation budgets.**  In every run: the total of a chat is the sum over the
distinct runs first charged since its last reset; a run that has been charged is never
charged again, and refused when its usage differs; and a chat that has reached a limit
admits no run until its next reset. -/
theorem budget_accounts {h : AccountHistory} {s : Accounts} (hrun : accounts.Run h s)
    (chatId : String) :
    (∀ row, s.registry.runtimes.find? chatId = some row →
        ∀ key, amount row.budgetUsed key = spent (firstCharges chatId h) key) ∧
      ((firstCharges chatId h).map Prod.fst).Nodup ∧
      (∀ runId uuid charged, charged? chatId (stableRunId runId uuid) h = some charged →
        ∀ usage eventId now, ∃ row, s.registry.runtimes.find? chatId = some row ∧
          recordUsage chatId runId usage uuid eventId now s =
            (if cleanUsage usage = charged then .recorded row
              else .raised (.runtime "budget run identity was reused with different usage"), s)) ∧
      ∀ later earlier, h = later ++ earlier → LimitReached chatId earlier →
        (∀ e ∈ later, resetOf chatId e = none) →
          ∀ attachmentId background requireEmptyQueue identity uuid queuedInputs now,
            ∃ r, tryReserveRun chatId attachmentId background requireEmptyQueue identity uuid
                queuedInputs now s.registry = (.raised (.budgetExhausted
                  "chat continuation is paused because its admitted budget is exhausted"), r) ∧
              r.reservations = s.registry.reservations := by
  have hs := balanced_of_run hrun chatId
  refine ⟨hs.used, (nodup_firstCharges chatId h).1, ?_, ?_⟩
  · intro runId uuid charged hcharged usage eventId now
    exact hs.recordUsage_charged hcharged usage eventId now
  · intro later earlier happend hreached hlater
    have hreached := hreached.append hlater
    rw [← happend] at hreached
    exact hs.refused hreached

/-! ## 6.  Two charges -/

def unnamed : RuntimeIdentity := ⟨"", "", "", "", "", "", "", "", "", none, "", 0⟩

/-- A charge of six tokens. -/
def charging (runId uuid eventId : String) : AccountCall :=
  .recordUsage "chat" runId [("tokens", some 6)] uuid eventId 2

/-- A budget of ten tokens, and a run that is charged twice. -/
def budgeted : List AccountCall :=
  [.setBudget "chat" [("tokens", some 10)] unnamed 1,
    charging "run_1" "u1" "e1", charging "run_1" "u2" "e2"]

/-- The repeated charge is not added; a second run reaches the limit. -/
theorem budget_accounts_reached :
    ∃ h s, accounts.Run h s ∧ spent (firstCharges "chat" h) "tokens" = 12 ∧
      ∃ r, tryReserveRun "chat" "" false false unnamed "u4" 0 3 s.registry = (.raised (.budgetExhausted
          "chat continuation is paused because its admitted budget is exhausted"), r) := by
  have hrun := (Machine.Run.start (M := accounts)).exec
    (budgeted ++ [charging " run_2 " "u3" "e3"])
  refine ⟨_, _, hrun, by decide +kernel, ?_⟩
  have hreached : LimitReached "chat" (accounts.exec ([], accounts.start)
      (budgeted ++ [charging " run_2 " "u3" "e3"])).1 :=
    ⟨("tokens", 10), by decide +kernel, by decide +kernel, by decide +kernel⟩
  obtain ⟨r, hr, -⟩ := (budget_accounts hrun "chat").2.2.2 [] _ rfl hreached (by simp) "" false
    false unnamed "u4" 0 3
  exact ⟨r, hr⟩

/-- **A repeated charge is added again** when its run has no id. -/
theorem blank_run_charged_again :
    ∃ h s reply s', accounts.Run h s ∧ charging "" "u1" "e1" ∈ h.map Prod.fst ∧
      accounts.step (charging "" "u2" "e2") s = (reply, s') ∧
      (s.registry.runtimes.find? "chat").map (fun r => amount r.budgetUsed "tokens") = some 6 ∧
      (s'.registry.runtimes.find? "chat").map (fun r => amount r.budgetUsed "tokens") =
        some 12 := by
  have hrun := (Machine.Run.start (M := accounts)).exec
    (budgeted.take 1 ++ [charging "" "u1" "e1"])
  refine ⟨_, _, _, _, hrun, by simp [Machine.exec, budgeted], Prod.mk.eta.symm, ?_, ?_⟩
  · decide +kernel
  · decide +kernel

end SessionRuntime
end VariantOne
