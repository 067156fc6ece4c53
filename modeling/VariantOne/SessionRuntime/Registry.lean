import VariantOne.Lib.Machine
import VariantOne.SessionRuntime.Runtimes

/-!
# The runtime registry

A run of a chat is admitted under the registry's guard.  Two other parties keep a
chat to themselves for a while and put a fence up under the same guard: a change of
its settings and the retirement of its kernel.  Two more change the durable record
of an idle chat: `set_mutation_write_enabled` and `assign_identity`.

Each guarded section is one step.  A call that leaves the guard and comes back is
kept in the state in between, with what it carries across.  Fresh identifiers
(`uuid4`) are drawn by the label; one that was drawn before is not drawn again.
-/

namespace VariantOne
namespace SessionRuntime

/-! ## 1.  The state -/

/-- `try_reserve_run` between its checks and its guarded section. -/
structure ReserveCall where
  chatId : String
  attachmentId : String
  background : Bool
  requireEmptyQueue : Bool
  /-- `budget_used` of the record the budget was checked on. -/
  budgetUsed : Amounts

/-- `assign_identity` between its checks and its transaction. -/
structure AssignCall where
  chatId : String
  identity : RuntimeIdentity
  expectedActionSurface : String
  /-- The thread references were read and there were none. -/
  unlinked : Bool

structure Registry where
  runtimes : RuntimeTable
  /-- `_live` -/
  live : List (String × LiveRuntime)
  /-- `_reservations` -/
  reservations : List (String × RunAdmission)
  reserving : List ReserveCall
  /-- The bodies of `change_settings`: the chat and the token. -/
  changing : List (String × String)
  /-- The bodies of `claim_kernel_retirement` that are allowed: the chat and the future. -/
  retiring : List (String × Nat)
  assigning : List AssignCall
  /-- The identifiers drawn so far, and the futures made. -/
  drawn : List String
  futures : Nat

namespace Registry

/-- A registry over a store. -/
def withRuntimes (runtimes : RuntimeTable) : Registry := ⟨runtimes, [], [], [], [], [], [], [], 0⟩

/-- The live runtime of a chat, or a new one. -/
def liveOf (r : Registry) (chatId : String) : LiveRuntime :=
  (Dict.get? r.live chatId).getD LiveRuntime.new

def setLive (r : Registry) (chatId : String) (live : LiveRuntime) : Registry :=
  { r with live := Dict.set r.live chatId live }

/-- The admission of a chat. -/
def admission? (r : Registry) (chatId : String) : Option RunAdmission :=
  (r.liveOf chatId).admission

/-- `uuid4()` does not repeat. -/
def fresh (r : Registry) (uuid : String) : Bool := uuid ≠ "" && !r.drawn.contains uuid

end Registry

/-- `_budget_allows` -/
def budgetAllows (record : ChatRuntimeRecord) : Bool :=
  record.continuationState != "paused_budget_exhausted" &&
    record.budgetLimits.all fun (key, limit) =>
      !(decide (0 < limit) && decide (limit ≤ (Dict.get? record.budgetUsed key).getD 0))

/-! ## 2.  The steps -/

/-- One guarded section or transaction. -/
inductive RuntimeCall where
  /-- `ensure_runtime`, with which most calls begin. -/
  | ensure (chatId : String) (identity : RuntimeIdentity) (now : ℚ)
  /-- `try_reserve_run` up to its guarded section. -/
  | reserveCheck (chatId attachmentId : String) (background requireEmptyQueue : Bool)
      (identity : RuntimeIdentity) (now : ℚ)
  /-- The guarded section of the `k`-th `try_reserve_run` under way. -/
  | reserve (k : Nat) (uuid : String) (queuedInputs : Nat) (now : ℚ)
  | finish (admissionId : String)
  /-- `change_settings`, entered and left. -/
  | changeEnter (chatId uuid : String)
  | changeExit (k : Nat)
  /-- `claim_kernel_retirement`, entered and left. -/
  | retireEnter (chatId : String)
  | retireExit (k : Nat)
  /-- The guarded section of `set_mutation_write_enabled`. -/
  | setMutation (chatId : String) (enabled : Bool) (actor : String) (expectedRevision : Option Int)
      (now : ℚ)
  /-- The guarded section of `assign_identity`. -/
  | assignCheck (chatId : String) (identity : RuntimeIdentity) (expectedActionSurface : String)
  /-- The `k`-th `assign_identity` under way reads the thread references. -/
  | assignRefs (k : Nat) (threadRefs : List String)
  /-- Its transaction. -/
  | assignCommit (k : Nat) (now : ℚ)
  /-- `install_kernel_lease` and `remove_kernel_lease`. -/
  | lease (chatId : String) (installed : Bool)

/-- What a step returns. -/
inductive RuntimeReply where
  | nothing
  | raised (e : SessionError)
  /-- `None`: the run is not admitted. -/
  | refused
  | admitted (admissionId : String)
  | allowed (ok : Bool)
  | recorded (record : ChatRuntimeRecord)

namespace Registry

/-- `try_reserve_run` up to its guarded section: the record is read and its budget
checked. -/
def reserveCheck (r : Registry) (chatId attachmentId : String)
    (background requireEmptyQueue : Bool) (identity : RuntimeIdentity) (now : ℚ) :
    RuntimeReply × Registry :=
  match ensureRuntime chatId identity now r.runtimes with
  | (.error e, runtimes) => (.raised e, { r with runtimes := runtimes })
  | (.ok record, runtimes) =>
      if budgetAllows record then
        (.nothing, { r.setLive chatId (r.liveOf chatId) with
          runtimes := runtimes
          reserving := r.reserving ++
            [⟨chatId, attachmentId, background, requireEmptyQueue, record.budgetUsed⟩] })
      else
        (.raised (.budgetExhausted
            "chat continuation is paused because its admitted budget is exhausted"),
          { r.setLive chatId (r.liveOf chatId) with runtimes := runtimes })

/-- The admission `try_reserve_run` makes. -/
def newAdmission (c : ReserveCall) (uuid : String) (now : ℚ) : RunAdmission where
  admissionId := "admit_" ++ uuid
  chatId := c.chatId
  attachmentId := c.attachmentId
  reservedAt := now
  runId := ""
  threadId := ""
  background := c.background
  acceptingInputs := true
  budgetBaseline := c.budgetUsed

/-- Admit a run. -/
def recordAdmission (r : Registry) (a : RunAdmission) : Registry :=
  { r.setLive a.chatId { r.liveOf a.chatId with admission := some a } with
    reservations := Dict.set r.reservations a.admissionId a }

/-- The guarded section of `try_reserve_run`. -/
def reserve (r : Registry) (c : ReserveCall) (uuid : String) (queuedInputs : Nat) (now : ℚ) :
    RuntimeReply × Registry :=
  let live := r.liveOf c.chatId
  if live.settingsChangeId ≠ "" ∨ live.kernelRetirement.isSome then (.refused, r)
  else if c.requireEmptyQueue ∧ queuedInputs ≠ 0 then (.refused, r)
  else if live.admission.isSome then (.refused, r)
  else if r.fresh uuid then
    (.admitted ("admit_" ++ uuid),
      { r.recordAdmission (newAdmission c uuid now) with drawn := uuid :: r.drawn })
  else (.nothing, r)

/-- `finish_run` -/
def finish (r : Registry) (admissionId : String) : Registry :=
  match Dict.get? r.reservations admissionId with
  | none => r
  | some a =>
      let r := { r with reservations := Dict.restrict (· ≠ admissionId) r.reservations }
      let live := r.liveOf a.chatId
      if live.admission.any (·.admissionId == a.admissionId) then
        r.setLive a.chatId { live with admission := none }
      else r

/-- `change_settings`, entered. -/
def changeEnter (r : Registry) (chatId uuid : String) : RuntimeReply × Registry :=
  let live := r.liveOf chatId
  if live.admission.isSome then (.raised (.runtime "session_has_active_run"), r)
  else if live.settingsChangeId ≠ "" then (.raised (.runtime "session_configuration_pending"), r)
  else if r.fresh uuid then
    (.nothing, { r.setLive chatId { live with settingsChangeId := uuid } with
      changing := r.changing ++ [(chatId, uuid)], drawn := uuid :: r.drawn })
  else (.nothing, r)

/-- `change_settings`, left. -/
def changeExit (r : Registry) (chatId token : String) : Registry :=
  let live := r.liveOf chatId
  if live.settingsChangeId = token then r.setLive chatId { live with settingsChangeId := "" }
  else r

/-- `claim_kernel_retirement`, entered. -/
def retireEnter (r : Registry) (chatId : String) : RuntimeReply × Registry :=
  match Dict.get? r.live chatId with
  | none => (.allowed false, r)
  | some live =>
      if live.admission.isNone ∧ live.settingsChangeId = "" ∧ live.kernelRetirement.isNone then
        (.allowed true, { r.setLive chatId { live with kernelRetirement := some r.futures } with
          retiring := r.retiring ++ [(chatId, r.futures)], futures := r.futures + 1 })
      else (.allowed false, r)

/-- `claim_kernel_retirement`, left. -/
def retireExit (r : Registry) (chatId : String) (future : Nat) : Registry :=
  let live := r.liveOf chatId
  if live.kernelRetirement = some future then
    r.setLive chatId { live with kernelRetirement := none }
  else r

/-- The guarded section of `set_mutation_write_enabled`: the transaction commits
inside the guard. -/
def setMutation (r : Registry) (chatId : String) (enabled : Bool) (actor : String)
    (expectedRevision : Option Int) (now : ℚ) : RuntimeReply × Registry :=
  let live := r.liveOf chatId
  if live.settingsChangeId ≠ "" then
    (.raised (.runtime
      "cannot change mutation authority while session configuration is pending"), r)
  else if live.admission.isSome then
    (.raised (.runtime "cannot change mutation write authority during an active run"), r)
  else
    match mutationAuthorityCas chatId enabled actor expectedRevision now r.runtimes with
    | .error e => (.raised e, r)
    | .ok (record, runtimes) => (.recorded record, { r with runtimes := runtimes })

/-- The guarded section of `assign_identity`. -/
def assignCheck (r : Registry) (chatId : String) (identity : RuntimeIdentity)
    (expectedActionSurface : String) : RuntimeReply × Registry :=
  let live := r.liveOf chatId
  if live.admission.isSome ∨ live.kernelLease ∨ live.settingsChangeId ≠ "" then
    (.raised (.runtime "cannot change profile while the chat has live work"), r)
  else
    (.nothing, { r with
      assigning := r.assigning ++ [⟨chatId, identity, expectedActionSurface, false⟩] })

/-- `assign_identity` reads the thread references, outside the guard. -/
def assignRefs (r : Registry) (k : Nat) (c : AssignCall) (threadRefs : List String) :
    RuntimeReply × Registry :=
  if threadRefs ≠ [] then
    (.raised (.runtime "cannot change profile after a graph checkpoint exists"),
      { r with assigning := r.assigning.eraseIdx k })
  else (.nothing, { r with assigning := r.assigning.set k { c with unlinked := true } })

/-- The transaction of `assign_identity`, outside the guard. -/
def assignCommit (repr : String → String) (r : Registry) (k : Nat) (c : AssignCall) (now : ℚ) :
    RuntimeReply × Registry :=
  match assignIdentity repr c.chatId c.identity c.expectedActionSurface now r.runtimes with
  | .error e => (.raised e, { r with assigning := r.assigning.eraseIdx k })
  | .ok (record, runtimes) =>
      (.recorded record, { r with runtimes := runtimes, assigning := r.assigning.eraseIdx k })

variable (repr : String → String)

def step : RuntimeCall → Registry → RuntimeReply × Registry
  | .ensure chatId identity now, r =>
      match ensureRuntime chatId identity now r.runtimes with
      | (.error e, runtimes) => (.raised e, { r with runtimes := runtimes })
      | (.ok record, runtimes) =>
          (.recorded record, { r.setLive chatId (r.liveOf chatId) with runtimes := runtimes })
  | .reserveCheck chatId attachmentId background requireEmptyQueue identity now, r =>
      r.reserveCheck chatId attachmentId background requireEmptyQueue identity now
  | .reserve k uuid queuedInputs now, r =>
      match r.reserving[k]? with
      | none => (.nothing, r)
      | some c => ({ r with reserving := r.reserving.eraseIdx k }).reserve c uuid queuedInputs now
  | .finish admissionId, r => (.nothing, r.finish admissionId)
  | .changeEnter chatId uuid, r => r.changeEnter chatId uuid
  | .changeExit k, r =>
      match r.changing[k]? with
      | none => (.nothing, r)
      | some (chatId, token) =>
          (.nothing, ({ r with changing := r.changing.eraseIdx k }).changeExit chatId token)
  | .retireEnter chatId, r => r.retireEnter chatId
  | .retireExit k, r =>
      match r.retiring[k]? with
      | none => (.nothing, r)
      | some (chatId, future) =>
          (.nothing, ({ r with retiring := r.retiring.eraseIdx k }).retireExit chatId future)
  | .setMutation chatId enabled actor expectedRevision now, r =>
      r.setMutation chatId enabled actor expectedRevision now
  | .assignCheck chatId identity expectedActionSurface, r =>
      r.assignCheck chatId identity expectedActionSurface
  | .assignRefs k threadRefs, r =>
      match r.assigning[k]? with
      | none => (.nothing, r)
      | some c => r.assignRefs k c threadRefs
  | .assignCommit k now, r =>
      match r.assigning[k]?.filter (·.unlinked) with
      | none => (.nothing, r)
      | some c => r.assignCommit repr k c now
  | .lease chatId installed, r =>
      (.nothing, r.setLive chatId { r.liveOf chatId with kernelLease := installed })

end Registry

/-- The registry under every interleaving, over a store. -/
def registry (repr : String → String) (runtimes : RuntimeTable) :
    Machine Registry RuntimeCall RuntimeReply :=
  ⟨Registry.withRuntimes runtimes, Registry.step repr⟩

end SessionRuntime
end VariantOne
