import VariantOne.SessionRuntime.Models

/-!
# The durable runtime records

The transactions on `astb_chat_runtime`.  Each reads the row of one chat, refuses or
changes it, and returns it as it then is.  Chat ids are clean here (`chat_id_value`
has accepted them).

`updateRuntime` is the one shape of a write: the record changes and its chat id stays.
`find?_updateRuntime` and `find?_ensureRuntime` say what a lookup gives afterwards, and `ensureRuntime_eq_ok`
what it takes to have a record, so the invariants of runs never look at a statement again.
-/

namespace VariantOne
namespace SessionRuntime

/-- The text a lifecycle state is stored as. -/
def Lifecycle.text : Lifecycle → String
  | creating => "creating"
  | active => "active"
  | deleting => "deleting"
  | deleted => "deleted"

/-- The row `ensure_runtime` inserts for a chat without one. -/
def newRuntime (chatId : String) (identity : RuntimeIdentity) (now : ℚ) : ChatRuntimeRecord where
  chatId := chatId
  lifecycleState := .active
  identity := identity
  continuationState := "ready"
  mutationWriteEnabled := false
  mutationAuthorityRevision := 0
  mutationAuthorityUpdatedAt := 0
  mutationAuthorityActor := ""
  budgetLimits := []
  budgetUsed := []
  creationSagaState := "complete"
  version := 1
  createdAt := now
  updatedAt := now

/-- `ensure_runtime`, with the identity the factory makes for a new chat. -/
def ensureRuntime (chatId : String) (identity : RuntimeIdentity) (now : ℚ) (t : RuntimeTable) :
    Except SessionError ChatRuntimeRecord × RuntimeTable :=
  match t.find? chatId with
  | some record =>
      if record.deleted then
        (.error (.runtimeDeleted s!"chat runtime is {record.lifecycleState.text}: {chatId}"), t)
      else (.ok record, t)
  | none =>
      match t.insert? (newRuntime chatId identity now) with
      | some t => (.ok (newRuntime chatId identity now), t)
      | none => (.error (.lookup s!"unknown chat runtime: {chatId}"), t)

/-- Update the row of a chat and return it. -/
def updateRuntime (t : RuntimeTable) (row : ChatRuntimeRecord)
    (f : ChatRuntimeRecord → ChatRuntimeRecord) (hf : ∀ r, (f r).chatId = r.chatId) :
    ChatRuntimeRecord × RuntimeTable :=
  (f row, t.updateWhere (fun r => r.chatId == row.chatId) f hf)

/-! ## Mutation authority -/

/-- What a change of the authority writes. -/
def authorityChange (enabled : Bool) (actor : String) (now : ℚ) (r : ChatRuntimeRecord) :
    ChatRuntimeRecord :=
  { r with
    mutationWriteEnabled := enabled
    mutationAuthorityRevision := r.mutationAuthorityRevision + 1
    mutationAuthorityUpdatedAt := now
    mutationAuthorityActor := actor
    updatedAt := now
    version := r.version + 1 }

theorem chatId_authorityChange (enabled : Bool) (actor : String) (now : ℚ)
    (r : ChatRuntimeRecord) : (authorityChange enabled actor now r).chatId = r.chatId := rfl

/-- `marker.startswith(("child:", "worker:"))` -/
def isSubordinate (marker : String) : Bool :=
  "child:".toList.isPrefixOf marker.toList || "worker:".toList.isPrefixOf marker.toList

/-- `mutation_authority_cas` -/
def mutationAuthorityCas (chatId : String) (enabled : Bool) (actor : String)
    (expectedRevision : Option Int) (now : ℚ) (t : RuntimeTable) :
    Except SessionError (ChatRuntimeRecord × RuntimeTable) :=
  if strip actor = "" then .error (.value "mutation write authority requires an actor")
  else if 200 < (strip actor).length then
    .error (.value "mutation write authority actor exceeds 200 characters")
  else if expectedRevision.any (· < 0) then
    .error (.value "mutation authority revision cannot be negative")
  else
    match t.find? chatId with
    | none => .error (.lookup s!"unknown chat runtime: {chatId}")
    | some row =>
        if row.lifecycleState ≠ .active then
          .error (.runtime s!"chat runtime is not active: {chatId}")
        else if enabled ∧ isSubordinate row.creationSagaState then
          .error (.runtime "mutation write authority is unavailable to child or worker runtimes")
        else
          match expectedRevision.filter (· ≠ (row.mutationAuthorityRevision : Int)) with
          | some expected =>
              .error (.runtime ("mutation authority CAS failed " ++
                s!"({row.mutationAuthorityRevision} != {expected})"))
          | none =>
              if row.mutationWriteEnabled = enabled then .ok (row, t)
              else
                .ok (updateRuntime t row (authorityChange enabled (strip actor) now)
                  (chatId_authorityChange enabled (strip actor) now))

/-! ## Identity -/

/-- What an assignment of an identity writes. -/
def identityChange (identity : RuntimeIdentity) (now : ℚ) (r : ChatRuntimeRecord) :
    ChatRuntimeRecord :=
  { r with identity := identity, updatedAt := now, version := r.version + 1 }

theorem chatId_identityChange (identity : RuntimeIdentity) (now : ℚ) (r : ChatRuntimeRecord) :
    (identityChange identity now r).chatId = r.chatId := rfl

/-- `assign_identity` of the repository; `repr` writes the two surfaces of its error. -/
def assignIdentity (repr : String → String) (chatId : String) (identity : RuntimeIdentity)
    (expectedActionSurface : String) (now : ℚ) (t : RuntimeTable) :
    Except SessionError (ChatRuntimeRecord × RuntimeTable) :=
  match t.find? chatId with
  | none => .error (.lookup s!"unknown chat runtime: {chatId}")
  | some row =>
      if row.lifecycleState ≠ .active then
        .error (.runtime s!"chat runtime is not active: {chatId}")
      else if row.identity.actionSurface ≠ expectedActionSurface then
        .error (.runtime ("chat action-surface CAS failed " ++
          s!"({repr row.identity.actionSurface} != {repr expectedActionSurface})"))
      else .ok (updateRuntime t row (identityChange identity now) (chatId_identityChange identity now))

/-! ## What an update changes -/

theorem find?_updateRuntime {t : RuntimeTable} {row : ChatRuntimeRecord} {chatId : String}
    {f : ChatRuntimeRecord → ChatRuntimeRecord} (hf : ∀ r, (f r).chatId = r.chatId)
    (h : t.find? chatId = some row) (other : String) :
    (updateRuntime t row f hf).2.find? other =
      if chatId = other then some (f row) else t.find? other := by
  have hkey := Table.key_of_find? h
  unfold updateRuntime
  rw [Table.find?_updateWhere]
  by_cases hid : chatId = other
  · subst hid
    rw [h]
    simp
  · rw [if_neg hid]
    cases hrow : t.find? other with
    | none => rfl
    | some r =>
        have hr := Table.key_of_find? hrow
        have hne : r.chatId ≠ row.chatId := fun heq => hid (hkey.symm.trans (heq.symm.trans hr))
        simp [hne]

/-- Existing rows are left as they are. -/
theorem find?_ensureRuntime {chatId other : String} {identity : RuntimeIdentity} {now : ℚ}
    {t : RuntimeTable} {row : ChatRuntimeRecord} (h : t.find? other = some row) :
    (ensureRuntime chatId identity now t).2.find? other = some row := by
  unfold ensureRuntime
  split
  · split <;> exact h
  · rename_i hnone
    split
    · rename_i t' hinsert
      obtain ⟨-, hrows⟩ := Table.insert?_eq_some hinsert
      have hne : (newRuntime chatId identity now).chatId ≠ other := by
        intro heq
        rw [← heq] at h
        exact absurd (hnone.symm.trans h) (by simp)
      rw [Table.find?_of_rows_append hrows, if_neg hne]
      exact h
    · exact h

/-- A record that is returned is the row. -/
theorem ensureRuntime_eq_ok {chatId : String} {identity : RuntimeIdentity} {now : ℚ}
    {t t' : RuntimeTable} {record : ChatRuntimeRecord}
    (h : ensureRuntime chatId identity now t = (.ok record, t')) :
    t'.find? chatId = some record := by
  unfold ensureRuntime at h
  split at h
  · rename_i row hrow
    split at h
    · exact absurd (Prod.mk.inj h).1 (by simp)
    · obtain ⟨hrec, rfl⟩ := Prod.mk.inj h
      rw [← Except.ok.inj hrec]
      exact hrow
  · split at h
    · rename_i t'' hinsert
      obtain ⟨hrec, rfl⟩ := Prod.mk.inj h
      have hkey : (newRuntime chatId identity now).chatId = chatId := rfl
      rw [← Except.ok.inj hrec, Table.find?_of_rows_append (Table.insert?_eq_some hinsert).2,
        if_pos hkey]
    · exact absurd (Prod.mk.inj h).1 (by simp)

end SessionRuntime
end VariantOne
