import VariantOne.SessionRuntime.Registry

/-!
# Exclusive admission of runs

The live runtime of a chat and the reservations tell the same story: an admission is
the one of its chat, and a chat with an admission has no fence up (`Exclusive`).
Every guarded section keeps this, in any order.

The durable record is a different matter.  `set_mutation_write_enabled` commits under
the guard; `assign_identity` checks under the guard and commits outside, and a run
can be admitted in between.

`admission_exclusive` is stated for runs whose identity assignments commit while no run is admitted, which
is the one thing the guard does not ensure; `identity_changed_under_run` is a run in which it fails.  A
settings change and a retirement each release the fence they put up, and no other.
-/

namespace VariantOne
namespace SessionRuntime

namespace Registry

/-! ## 1.  The live runtime of a chat -/

theorem liveOf_setLive (r : Registry) (chatId : String) (live : LiveRuntime) (other : String) :
    (r.setLive chatId live).liveOf other = if other = chatId then live else r.liveOf other := by
  unfold liveOf setLive
  by_cases h : other = chatId
  · rw [if_pos h, h, Dict.get?_set_self]
    rfl
  · rw [if_neg h, Dict.get?_set_of_ne (Ne.symm h)]

theorem admission?_setLive (r : Registry) (chatId : String) (live : LiveRuntime)
    (other : String) :
    (r.setLive chatId live).admission? other =
      if other = chatId then live.admission else r.admission? other := by
  unfold admission?
  rw [liveOf_setLive]
  split <;> rfl

/-- The live runtimes of two registries agree on a chat. -/
theorem liveOf_congr {r r' : Registry} (h : r'.live = r.live) (chatId : String) :
    r'.liveOf chatId = r.liveOf chatId := by
  unfold liveOf
  rw [h]

theorem admission?_congr {r r' : Registry} (h : r'.live = r.live) (chatId : String) :
    r'.admission? chatId = r.admission? chatId := by
  unfold admission?
  rw [liveOf_congr h]

end Registry

open Registry

/-! ## 2.  Exclusion -/

/-- **Exclusion.**  Admissions and reservations correspond, and an admission
excludes both fences. -/
structure Exclusive (r : Registry) : Prop where
  owned : ∀ chat a, r.admission? chat = some a →
    a.chatId = chat ∧ Dict.get? r.reservations a.admissionId = some a
  reserved : ∀ id a, Dict.get? r.reservations id = some a →
    a.admissionId = id ∧ r.admission? a.chatId = some a
  fenced : ∀ chat, (r.admission? chat).isSome →
    (r.liveOf chat).settingsChangeId = "" ∧ (r.liveOf chat).kernelRetirement = none
  /-- Admission ids are drawn. -/
  drawn : ∀ id a, Dict.get? r.reservations id = some a → ∃ uuid ∈ r.drawn, id = "admit_" ++ uuid
  /-- A run under way has a durable record. -/
  recorded : (∀ chat, (r.admission? chat).isSome → (r.runtimes.find? chat).isSome) ∧
    ∀ c ∈ r.reserving, (r.runtimes.find? c.chatId).isSome

theorem exclusive_withRuntimes (runtimes : RuntimeTable) : Exclusive (Registry.withRuntimes runtimes) where
  owned chat a h := absurd h (by simp [admission?, liveOf, Registry.withRuntimes, LiveRuntime.new])
  reserved id a h := absurd h (by simp [Registry.withRuntimes])
  fenced chat h := absurd h (by simp [admission?, liveOf, Registry.withRuntimes, LiveRuntime.new])
  drawn id a h := absurd h (by simp [Registry.withRuntimes])
  recorded := ⟨fun chat h => absurd h (by simp [admission?, liveOf, Registry.withRuntimes, LiveRuntime.new]),
    fun c h => absurd h (by simp [Registry.withRuntimes])⟩

/-- The rows of one store are in another. -/
def RowsKept (t t' : RuntimeTable) : Prop :=
  ∀ chat, (t.find? chat).isSome → (t'.find? chat).isSome

/-- A step that admits and releases no run keeps exclusion if it leaves the fences of
admitted chats down. -/
theorem Exclusive.quiet {r r' : Registry} (h : Exclusive r)
    (hadmission : ∀ chat, r'.admission? chat = r.admission? chat)
    (hfenced : ∀ chat, (r.admission? chat).isSome →
      (r'.liveOf chat).settingsChangeId = (r.liveOf chat).settingsChangeId ∧
        (r'.liveOf chat).kernelRetirement = (r.liveOf chat).kernelRetirement)
    (hreservations : r'.reservations = r.reservations) (hdrawn : ∀ u ∈ r.drawn, u ∈ r'.drawn)
    (hrows : RowsKept r.runtimes r'.runtimes)
    (hreserving : ∀ c ∈ r'.reserving, c ∈ r.reserving ∨ (r'.runtimes.find? c.chatId).isSome) :
    Exclusive r' where
  owned chat a ha := by
    rw [hreservations]
    exact h.owned chat a (hadmission chat ▸ ha)
  reserved id a ha := by
    rw [hreservations] at ha
    rw [hadmission]
    exact h.reserved id a ha
  fenced chat ha := by
    rw [hadmission] at ha
    obtain ⟨hs, hk⟩ := hfenced chat ha
    rw [hs, hk]
    exact h.fenced chat ha
  drawn id a ha := by
    rw [hreservations] at ha
    obtain ⟨u, hu, hid⟩ := h.drawn id a ha
    exact ⟨u, hdrawn u hu, hid⟩
  recorded := by
    refine ⟨fun chat ha => ?_, fun c hc => ?_⟩
    · rw [hadmission] at ha
      exact hrows chat (h.recorded.1 chat ha)
    · rcases hreserving c hc with hold | hnew
      · exact hrows _ (h.recorded.2 c hold)
      · exact hnew

theorem RowsKept.refl (t : RuntimeTable) : RowsKept t t := fun _ h => h

theorem rowsKept_ensureRuntime (chatId : String) (identity : RuntimeIdentity) (now : ℚ)
    (t : RuntimeTable) : RowsKept t (ensureRuntime chatId identity now t).2 := by
  intro chat h
  obtain ⟨row, hrow⟩ := Option.isSome_iff_exists.mp h
  rw [find?_ensureRuntime hrow]
  rfl

theorem rowsKept_updateRuntime {t : RuntimeTable} {row : ChatRuntimeRecord} {chatId : String}
    {f : ChatRuntimeRecord → ChatRuntimeRecord} (hf : ∀ r, (f r).chatId = r.chatId)
    (h : t.find? chatId = some row) : RowsKept t (updateRuntime t row f hf).2 := by
  intro chat hchat
  rw [find?_updateRuntime hf h]
  split
  · rfl
  · exact hchat

/-- A record that is returned is in the store. -/
theorem find?_ensureRuntime_ok {chatId : String} {identity : RuntimeIdentity} {now : ℚ}
    {t : RuntimeTable} {record : ChatRuntimeRecord}
    (h : (ensureRuntime chatId identity now t).1 = .ok record) :
    ((ensureRuntime chatId identity now t).2.find? chatId).isSome := by
  rw [ensureRuntime_eq_ok (Prod.ext h rfl)]
  rfl

/-! ## 3.  Each guarded section keeps exclusion -/

section Steps

variable {r : Registry}

/-- A change of one live runtime that keeps its admission, and its fences if it has one. -/
theorem Exclusive.setLive (h : Exclusive r) {chatId : String} {live : LiveRuntime}
    (hadmission : live.admission = r.admission? chatId)
    (hfenced : (r.admission? chatId).isSome →
      live.settingsChangeId = (r.liveOf chatId).settingsChangeId ∧
        live.kernelRetirement = (r.liveOf chatId).kernelRetirement) :
    Exclusive (r.setLive chatId live) := by
  refine h.quiet (fun chat => ?_) (fun chat ha => ?_) rfl (fun u hu => hu) (RowsKept.refl _)
    fun c hc => .inl hc
  · rw [admission?_setLive]
    split
    · rename_i heq
      rw [hadmission, heq]
    · rfl
  · rw [liveOf_setLive]
    split
    · rename_i heq
      rw [heq] at ha ⊢
      exact hfenced ha
    · exact ⟨rfl, rfl⟩

/-- What the calls under way carry does not matter. -/
theorem Exclusive.frame (h : Exclusive r) {r' : Registry} (hlive : r'.live = r.live)
    (hreservations : r'.reservations = r.reservations) (hdrawn : ∀ u ∈ r.drawn, u ∈ r'.drawn)
    (hrows : RowsKept r.runtimes r'.runtimes)
    (hreserving : ∀ c ∈ r'.reserving, c ∈ r.reserving ∨ (r'.runtimes.find? c.chatId).isSome) :
    Exclusive r' :=
  h.quiet (admission?_congr hlive) (fun chat _ => by rw [liveOf_congr hlive]; exact ⟨rfl, rfl⟩)
    hreservations hdrawn hrows hreserving

theorem Exclusive.ensureLive (h : Exclusive r) (chatId : String) :
    Exclusive (r.setLive chatId (r.liveOf chatId)) :=
  h.setLive rfl fun _ => ⟨rfl, rfl⟩

theorem Exclusive.reserveCheck (h : Exclusive r) (chatId attachmentId : String)
    (background requireEmptyQueue : Bool) (identity : RuntimeIdentity) (now : ℚ) :
    Exclusive (r.reserveCheck chatId attachmentId background requireEmptyQueue identity now).2 := by
  unfold Registry.reserveCheck
  have hkept := rowsKept_ensureRuntime chatId identity now r.runtimes
  have hfound := fun record =>
    @find?_ensureRuntime_ok chatId identity now r.runtimes record
  generalize ensureRuntime chatId identity now r.runtimes = p at *
  obtain ⟨result, runtimes⟩ := p
  cases result with
  | error e => exact h.frame rfl rfl (fun u hu => hu) hkept fun c hc => .inl hc
  | ok record =>
      dsimp only
      split
      · refine (h.ensureLive chatId).frame rfl rfl (fun u hu => hu) hkept fun c hc => ?_
        rcases List.mem_append.mp hc with hc | hc
        · exact .inl hc
        · rw [List.mem_singleton] at hc
          subst hc
          exact .inr (hfound record rfl)
      · exact (h.ensureLive chatId).frame rfl rfl (fun u hu => hu) hkept fun c hc => .inl hc

/-- Admitting a run where there is none and no fence is up. -/
theorem Exclusive.recordAdmission (h : Exclusive r) {a : RunAdmission} {uuid : String}
    (hnone : r.admission? a.chatId = none)
    (hsettings : (r.liveOf a.chatId).settingsChangeId = "")
    (hretirement : (r.liveOf a.chatId).kernelRetirement = none)
    (hid : a.admissionId = "admit_" ++ uuid) (hfresh : uuid ∉ r.drawn)
    (hrow : (r.runtimes.find? a.chatId).isSome) :
    Exclusive { r.recordAdmission a with drawn := uuid :: r.drawn } := by
  have hadmission : ∀ chat, (r.recordAdmission a).admission? chat =
      if chat = a.chatId then some a else r.admission? chat := fun chat =>
    admission?_setLive r a.chatId _ chat
  have hreservation : ∀ id, Dict.get? (r.recordAdmission a).reservations id =
      if id = a.admissionId then some a else Dict.get? r.reservations id := by
    intro id
    show Dict.get? (Dict.set r.reservations a.admissionId a) id = _
    by_cases heq : id = a.admissionId
    · rw [if_pos heq, heq, Dict.get?_set_self]
    · rw [if_neg heq, Dict.get?_set_of_ne (Ne.symm heq)]
  -- the drawn identifier is the id of no admission
  have hnew : ∀ id b, Dict.get? r.reservations id = some b → id ≠ a.admissionId := by
    intro id b hb heq
    obtain ⟨u, hu, hidu⟩ := h.drawn id b hb
    rw [heq, hid] at hidu
    exact hfresh (String.append_right_inj _ |>.mp hidu ▸ hu)
  constructor
  · intro chat b hb
    have hb : (r.recordAdmission a).admission? chat = some b := hb
    show _ ∧ Dict.get? (r.recordAdmission a).reservations b.admissionId = some b
    rw [hadmission] at hb
    rw [hreservation]
    split at hb
    · rename_i heq
      obtain rfl := Option.some.inj hb
      exact ⟨heq.symm, if_pos rfl⟩
    · obtain ⟨hchat, hres⟩ := h.owned chat b hb
      rw [if_neg (hnew _ b hres)]
      exact ⟨hchat, hres⟩
  · intro id b hb
    have hb : Dict.get? (r.recordAdmission a).reservations id = some b := hb
    show _ ∧ (r.recordAdmission a).admission? b.chatId = some b
    rw [hreservation] at hb
    rw [hadmission]
    split at hb
    · rename_i heq
      obtain rfl := Option.some.inj hb
      exact ⟨heq.symm, if_pos rfl⟩
    · obtain ⟨hbid, hadm⟩ := h.reserved id b hb
      have hne : b.chatId ≠ a.chatId := by
        intro heq
        rw [heq, hnone] at hadm
        exact absurd hadm (by simp)
      rw [if_neg hne]
      exact ⟨hbid, hadm⟩
  · intro chat hsome
    have hsome : ((r.recordAdmission a).admission? chat).isSome := hsome
    show ((r.recordAdmission a).liveOf chat).settingsChangeId = "" ∧
      ((r.recordAdmission a).liveOf chat).kernelRetirement = none
    have hlive : (r.recordAdmission a).liveOf chat = if chat = a.chatId then
        { r.liveOf a.chatId with admission := some a } else r.liveOf chat :=
      liveOf_setLive r a.chatId _ chat
    rw [hlive]
    rw [hadmission] at hsome
    split
    · exact ⟨hsettings, hretirement⟩
    · rename_i hne
      rw [if_neg hne] at hsome
      exact h.fenced chat hsome
  · intro id b hb
    have hb : Dict.get? (r.recordAdmission a).reservations id = some b := hb
    rw [hreservation] at hb
    split at hb
    · rename_i heq
      exact ⟨uuid, List.mem_cons_self, heq.trans hid⟩
    · obtain ⟨u, hu, hidu⟩ := h.drawn id b hb
      exact ⟨u, List.mem_cons_of_mem _ hu, hidu⟩
  · refine ⟨fun chat hsome => ?_, h.recorded.2⟩
    have hsome : ((r.recordAdmission a).admission? chat).isSome := hsome
    rw [hadmission] at hsome
    split at hsome
    · rename_i heq
      rw [heq]
      exact hrow
    · exact h.recorded.1 chat hsome

theorem Exclusive.reserve (h : Exclusive r) {c : ReserveCall}
    (hc : (r.runtimes.find? c.chatId).isSome) (uuid : String) (queuedInputs : Nat) (now : ℚ) :
    Exclusive (r.reserve c uuid queuedInputs now).2 := by
  unfold Registry.reserve
  dsimp only
  split
  · exact h
  rename_i hfences
  split
  · exact h
  split
  · exact h
  rename_i hnone
  split
  · rename_i hfresh
    rw [not_or, not_not, Option.not_isSome_iff_eq_none] at hfences
    unfold Registry.fresh at hfresh
    rw [Bool.and_eq_true, Bool.not_eq_true', List.contains_eq_mem, decide_eq_false_iff_not] at hfresh
    exact h.recordAdmission (Option.not_isSome_iff_eq_none.mp hnone) hfences.1 hfences.2 rfl hfresh.2 hc
  · exact h

/-- Releasing one admission, and its reservation. -/
theorem Exclusive.release (h : Exclusive r) {r' : Registry} {a : RunAdmission}
    (ha : r.admission? a.chatId = some a)
    (hadmission : ∀ chat, r'.admission? chat =
      if chat = a.chatId then none else r.admission? chat)
    (hlive : ∀ chat, chat ≠ a.chatId → r'.liveOf chat = r.liveOf chat)
    (hreservation : ∀ id, Dict.get? r'.reservations id =
      if id ≠ a.admissionId then Dict.get? r.reservations id else none)
    (hdrawn : r'.drawn = r.drawn) (hruntimes : r'.runtimes = r.runtimes)
    (hreserving : r'.reserving = r.reserving) : Exclusive r' where
  owned chat b hb := by
    rw [hadmission] at hb
    split at hb
    · exact absurd hb (by simp)
    · rename_i hne
      obtain ⟨hchat, hres⟩ := h.owned chat b hb
      have hid : b.admissionId ≠ a.admissionId := by
        intro heq
        rw [heq, (h.owned _ a ha).2] at hres
        obtain rfl := Option.some.inj hres
        exact hne hchat.symm
      rw [hreservation, if_pos hid]
      exact ⟨hchat, hres⟩
  reserved id b hb := by
    rw [hreservation] at hb
    split at hb
    · rename_i hne
      obtain ⟨hbid, hbadm⟩ := h.reserved id b hb
      have hchat : b.chatId ≠ a.chatId := by
        intro heq
        rw [heq, ha] at hbadm
        obtain rfl := Option.some.inj hbadm
        exact hne hbid.symm
      rw [hadmission, if_neg hchat]
      exact ⟨hbid, hbadm⟩
    · exact absurd hb (by simp)
  fenced chat hsome := by
    rw [hadmission] at hsome
    split at hsome
    · exact absurd hsome (by simp)
    · rename_i hne
      rw [hlive chat hne]
      exact h.fenced chat hsome
  drawn id b hb := by
    rw [hreservation] at hb
    rw [hdrawn]
    split at hb
    · exact h.drawn id b hb
    · exact absurd hb (by simp)
  recorded := by
    rw [hruntimes, hreserving]
    refine ⟨fun chat hsome => ?_, h.recorded.2⟩
    rw [hadmission] at hsome
    split at hsome
    · exact absurd hsome (by simp)
    · exact h.recorded.1 chat hsome

/-- **`finish_run` releases the admission with its own id.** -/
theorem Exclusive.finish (h : Exclusive r) (admissionId : String) :
    Exclusive (r.finish admissionId) ∧ ∀ chat, (r.finish admissionId).admission? chat =
      (r.admission? chat).filter fun a => a.admissionId != admissionId := by
  -- an admission with this id is the reserved one
  have hown : ∀ chat a, r.admission? chat = some a → a.admissionId = admissionId →
      a.chatId = chat ∧ Dict.get? r.reservations admissionId = some a := by
    intro chat a ha hid
    rw [← hid]
    exact h.owned chat a ha
  unfold Registry.finish
  split
  · rename_i hnone
    refine ⟨h, fun chat => ?_⟩
    cases ha : r.admission? chat with
    | none => rfl
    | some a =>
        have hne : a.admissionId ≠ admissionId := by
          intro hid
          exact absurd (hnone.symm.trans (hown chat a ha hid).2) (by simp)
        simp [Option.filter, hne]
  · rename_i a ha
    obtain ⟨haid, hadm⟩ := h.reserved admissionId a ha
    have hlive : ((r.liveOf a.chatId).admission.any (·.admissionId == a.admissionId)) = true := by
      have : (r.liveOf a.chatId).admission = some a := hadm
      rw [this, Option.any_some, beq_self_eq_true]
    have hdrop : ({ r with reservations := Dict.restrict (· ≠ admissionId) r.reservations } :
        Registry).liveOf a.chatId = r.liveOf a.chatId := rfl
    dsimp only
    rw [hdrop, if_pos hlive]
    have hadmission : ∀ chat, (({ r with
        reservations := Dict.restrict (· ≠ admissionId) r.reservations } : Registry).setLive
        a.chatId { r.liveOf a.chatId with admission := none }).admission? chat =
        if chat = a.chatId then none else r.admission? chat := fun chat =>
      admission?_setLive _ a.chatId _ chat
    constructor
    · refine h.release hadm hadmission (fun chat hne => ?_) (fun id => ?_) rfl rfl rfl
      · rw [liveOf_setLive, if_neg hne]
        rfl
      · show Dict.get? (Dict.restrict (· ≠ admissionId) r.reservations) id = _
        rw [Dict.get?_restrict, haid]
        simp
    · intro chat
      rw [hadmission]
      split
      · rename_i heq
        rw [heq, hadm]
        simp [Option.filter, haid]
      · rename_i hne
        cases hb : r.admission? chat with
        | none => rfl
        | some b =>
            have hid : b.admissionId ≠ admissionId := by
              intro hid
              obtain ⟨hchat, hres⟩ := hown chat b hb hid
              obtain rfl := Option.some.inj (ha.symm.trans hres)
              exact hne hchat.symm
            simp [Option.filter, hid]

theorem Exclusive.changeEnter (h : Exclusive r) (chatId uuid : String) :
    Exclusive (r.changeEnter chatId uuid).2 := by
  unfold Registry.changeEnter
  dsimp only
  split
  · exact h
  rename_i hnone
  have hnone : r.admission? chatId = none := Option.not_isSome_iff_eq_none.mp hnone
  split
  · exact h
  split
  · have hset : Exclusive (r.setLive chatId { r.liveOf chatId with settingsChangeId := uuid }) :=
      h.setLive rfl fun hsome => absurd hsome (by simp [hnone])
    exact hset.frame rfl rfl (fun u hu => List.mem_cons_of_mem _ hu) (RowsKept.refl _)
      fun c hc => .inl hc
  · exact h

theorem Exclusive.changeExit (h : Exclusive r) {chatId token : String} :
    Exclusive (r.changeExit chatId token) := by
  unfold Registry.changeExit
  dsimp only
  split
  · refine h.setLive rfl fun hsome => ⟨?_, rfl⟩
    exact (h.fenced chatId hsome).1.symm
  · exact h

theorem Exclusive.retireEnter (h : Exclusive r) (chatId : String) :
    Exclusive (r.retireEnter chatId).2 := by
  unfold Registry.retireEnter
  split
  · exact h
  · rename_i live hlive
    have hlive : r.liveOf chatId = live := by
      unfold liveOf
      rw [hlive]
      rfl
    split
    · rename_i hidle
      have hnone : r.admission? chatId = none := by
        unfold admission?
        rw [hlive]
        exact Option.isNone_iff_eq_none.mp hidle.1
      have hset : Exclusive (r.setLive chatId { live with kernelRetirement := some r.futures }) :=
        h.setLive (by rw [← hlive]; rfl) fun hsome => absurd hsome (by simp [hnone])
      exact hset.frame rfl rfl (fun u hu => hu) (RowsKept.refl _) fun c hc => .inl hc
    · exact h

theorem Exclusive.retireExit (h : Exclusive r) {chatId : String} {future : Nat} :
    Exclusive (r.retireExit chatId future) := by
  unfold Registry.retireExit
  dsimp only
  split
  · refine h.setLive rfl fun hsome => ⟨rfl, ?_⟩
    exact (h.fenced chatId hsome).2.symm
  · exact h

end Steps

/-- What a compare-and-swap of the authority does to the store. -/
theorem mutationAuthorityCas_eq_ok {chatId : String} {enabled : Bool} {actor : String}
    {expectedRevision : Option Int} {now : ℚ} {t t' : RuntimeTable} {record : ChatRuntimeRecord}
    (h : mutationAuthorityCas chatId enabled actor expectedRevision now t = .ok (record, t')) :
    RowsKept t t' ∧ ∀ other, chatId ≠ other → t'.find? other = t.find? other := by
  unfold mutationAuthorityCas at h
  split at h
  · exact absurd h (by simp)
  split at h
  · exact absurd h (by simp)
  split at h
  · exact absurd h (by simp)
  split at h
  · exact absurd h (by simp)
  rename_i row hrow
  split at h
  · exact absurd h (by simp)
  split at h
  · exact absurd h (by simp)
  split at h
  · exact absurd h (by simp)
  split at h
  · obtain ⟨-, rfl⟩ := Prod.mk.inj (Except.ok.inj h)
    exact ⟨RowsKept.refl _, fun _ _ => rfl⟩
  · obtain ⟨-, rfl⟩ := Prod.mk.inj (Except.ok.inj h)
    have hkey := chatId_authorityChange enabled (strip actor) now
    refine ⟨rowsKept_updateRuntime hkey hrow, fun other hne => ?_⟩
    exact (find?_updateRuntime hkey hrow other).trans (if_neg hne)

/-- What an assignment of an identity does to the store. -/
theorem assignIdentity_eq_ok {repr : String → String} {chatId : String}
    {identity : RuntimeIdentity} {expectedActionSurface : String} {now : ℚ} {t t' : RuntimeTable}
    {record : ChatRuntimeRecord}
    (h : assignIdentity repr chatId identity expectedActionSurface now t = .ok (record, t')) :
    ∃ row, t.find? chatId = some row ∧ row.lifecycleState = .active ∧
      row.identity.actionSurface = expectedActionSurface ∧ RowsKept t t' ∧
      ∀ other, t'.find? other =
        if chatId = other then some (identityChange identity now row) else t.find? other := by
  unfold assignIdentity at h
  split at h
  · exact absurd h (by simp)
  rename_i row hrow
  split at h
  · exact absurd h (by simp)
  rename_i hactive
  split at h
  · exact absurd h (by simp)
  rename_i hsurface
  obtain ⟨-, rfl⟩ := Prod.mk.inj (Except.ok.inj h)
  have hkey := chatId_identityChange identity now
  exact ⟨row, hrow, not_not.mp hactive, not_not.mp hsurface, rowsKept_updateRuntime hkey hrow,
    find?_updateRuntime hkey hrow⟩

section Runs

variable {repr : String → String} {runtimes : RuntimeTable}

/-- **Every step keeps exclusion.** -/
theorem exclusive_step {c : RuntimeCall} {r r' : Registry} {reply : RuntimeReply}
    (h : Exclusive r) (hs : r.step repr c = (reply, r')) : Exclusive r' := by
  have hstep : (r.step repr c).2 = r' := congrArg Prod.snd hs
  rw [← hstep]
  cases c with
  | ensure chatId identity now =>
      unfold Registry.step
      dsimp only
      have hkept := rowsKept_ensureRuntime chatId identity now r.runtimes
      generalize ensureRuntime chatId identity now r.runtimes = p at *
      obtain ⟨result, runtimes⟩ := p
      cases result with
      | error e => exact h.frame rfl rfl (fun u hu => hu) hkept fun c hc => .inl hc
      | ok record =>
          exact (h.ensureLive chatId).frame rfl rfl (fun u hu => hu) hkept fun c hc => .inl hc
  | reserveCheck => exact h.reserveCheck _ _ _ _ _ _
  | reserve k uuid queuedInputs now =>
      unfold Registry.step
      dsimp only
      split
      · exact h
      · rename_i c hc
        have herase : Exclusive { r with reserving := r.reserving.eraseIdx k } :=
          h.frame rfl rfl (fun u hu => hu) (RowsKept.refl _)
            fun c hc => .inl (List.mem_of_mem_eraseIdx hc)
        exact herase.reserve (h.recorded.2 c (List.mem_of_getElem? hc)) uuid queuedInputs now
  | finish admissionId => exact (h.finish admissionId).1
  | changeEnter => exact h.changeEnter _ _
  | changeExit k =>
      unfold Registry.step
      dsimp only
      split
      · exact h
      · have herase : Exclusive { r with changing := r.changing.eraseIdx k } :=
          h.frame rfl rfl (fun u hu => hu) (RowsKept.refl _) fun c hc => .inl hc
        exact herase.changeExit
  | retireEnter => exact h.retireEnter _
  | retireExit k =>
      unfold Registry.step
      dsimp only
      split
      · exact h
      · have herase : Exclusive { r with retiring := r.retiring.eraseIdx k } :=
          h.frame rfl rfl (fun u hu => hu) (RowsKept.refl _) fun c hc => .inl hc
        exact herase.retireExit
  | setMutation chatId enabled actor expectedRevision now =>
      show Exclusive (r.setMutation chatId enabled actor expectedRevision now).2
      unfold Registry.setMutation
      dsimp only
      split
      · exact h
      split
      · exact h
      split
      · exact h
      · rename_i record t hcas
        exact h.frame rfl rfl (fun u hu => hu) (mutationAuthorityCas_eq_ok hcas).1
          fun c hc => .inl hc
  | assignCheck chatId identity expectedActionSurface =>
      show Exclusive (r.assignCheck chatId identity expectedActionSurface).2
      unfold Registry.assignCheck
      dsimp only
      split
      · exact h
      · exact h.frame rfl rfl (fun u hu => hu) (RowsKept.refl _) fun c hc => .inl hc
  | assignRefs k threadRefs =>
      unfold Registry.step
      dsimp only
      split
      · exact h
      · unfold Registry.assignRefs
        split
        · exact h.frame rfl rfl (fun u hu => hu) (RowsKept.refl _) fun c hc => .inl hc
        · exact h.frame rfl rfl (fun u hu => hu) (RowsKept.refl _) fun c hc => .inl hc
  | assignCommit k now =>
      unfold Registry.step
      dsimp only
      split
      · exact h
      · unfold Registry.assignCommit
        split
        · exact h.frame rfl rfl (fun u hu => hu) (RowsKept.refl _) fun c hc => .inl hc
        · rename_i record t hassign
          obtain ⟨-, -, -, -, hkept, -⟩ := assignIdentity_eq_ok hassign
          exact h.frame rfl rfl (fun u hu => hu) hkept fun c hc => .inl hc
  | lease chatId installed => exact h.setLive rfl fun _ => ⟨rfl, rfl⟩

theorem exclusive_of_run {h : List (RuntimeCall × RuntimeReply)} {r : Registry}
    (hrun : (registry repr runtimes).Run h r) : Exclusive r :=
  hrun.invariant (I := fun _ r => Exclusive r) (exclusive_withRuntimes runtimes)
    fun _ _ _ _ _ _ ih hs => exclusive_step ih hs

/-! ## 4.  The durable record while a run is admitted -/

/-- The durable mutation authority and identity of a chat. -/
structure Pinned where
  mutationWriteEnabled : Bool
  mutationAuthorityRevision : Nat
  mutationAuthorityActor : String
  identity : RuntimeIdentity
  deriving DecidableEq

def ChatRuntimeRecord.pinned (row : ChatRuntimeRecord) : Pinned :=
  ⟨row.mutationWriteEnabled, row.mutationAuthorityRevision, row.mutationAuthorityActor,
    row.identity⟩

def Registry.pinned? (r : Registry) (chatId : String) : Option Pinned :=
  (r.runtimes.find? chatId).map (·.pinned)

/-- `assign_identity` commits while no run is admitted, or commits nothing new. -/
def Idle (_ : List (RuntimeCall × RuntimeReply)) (r : Registry) : RuntimeCall → Prop
  | .assignCommit k _ => ∀ c, r.assigning[k]? = some c →
      r.admission? c.chatId = none ∨ ∀ row, r.runtimes.find? c.chatId = some row →
        row.lifecycleState = .active → row.identity.actionSurface = c.expectedActionSurface →
          row.identity = c.identity
  | _ => True

/-- A step that does not finish the run of a chat leaves the run admitted and the
durable record as it is. -/
theorem held_step {h : List (RuntimeCall × RuntimeReply)} {c : RuntimeCall} {r r' : Registry}
    {reply : RuntimeReply} {chat : String} {a : RunAdmission} (hr : Exclusive r)
    (ha : r.admission? chat = some a) (hidle : Idle h r c) (hs : r.step repr c = (reply, r'))
    (hfinish : c ≠ .finish a.admissionId) :
    r'.admission? chat = some a ∧ r'.pinned? chat = r.pinned? chat := by
  have hstep : (r.step repr c).2 = r' := congrArg Prod.snd hs
  obtain ⟨row, hrow⟩ := Option.isSome_iff_exists.mp (hr.recorded.1 chat (ha ▸ rfl))
  -- a change of one live runtime that keeps its admission
  have hset : ∀ {s : Registry} {chatId live}, s.live = r.live →
      live.admission = (r.liveOf chatId).admission →
      (s.setLive chatId live).admission? chat = some a := by
    intro s chatId live hlive hadm
    rw [admission?_setLive]
    split
    · rename_i heq
      rw [hadm, ← heq]
      exact ha
    · rw [admission?_congr hlive]
      exact ha
  have hensure : ∀ chatId identity now, (((ensureRuntime chatId identity now r.runtimes).2.find?
      chat).map (·.pinned)) = r.pinned? chat := by
    intro chatId identity now
    rw [find?_ensureRuntime hrow, Registry.pinned?, hrow]
  rw [← hstep]
  cases c with
  | ensure chatId identity now =>
      unfold Registry.step
      dsimp only
      have hpinned := hensure chatId identity now
      generalize ensureRuntime chatId identity now r.runtimes = p at *
      obtain ⟨result, runtimes⟩ := p
      cases result with
      | error e => exact ⟨ha, hpinned⟩
      | ok record => exact ⟨hset rfl rfl, hpinned⟩
  | reserveCheck chatId attachmentId background requireEmptyQueue identity now =>
      show (r.reserveCheck chatId attachmentId background requireEmptyQueue identity
        now).2.admission? chat = _ ∧ (r.reserveCheck chatId attachmentId background
        requireEmptyQueue identity now).2.pinned? chat = _
      unfold Registry.reserveCheck
      have hpinned := hensure chatId identity now
      generalize ensureRuntime chatId identity now r.runtimes = p at *
      obtain ⟨result, runtimes⟩ := p
      cases result with
      | error e => exact ⟨ha, hpinned⟩
      | ok record =>
          dsimp only
          split
          · exact ⟨hset rfl rfl, hpinned⟩
          · exact ⟨hset rfl rfl, hpinned⟩
  | reserve k uuid queuedInputs now =>
      unfold Registry.step
      dsimp only
      split
      · exact ⟨ha, rfl⟩
      · rename_i c _
        unfold Registry.reserve
        dsimp only
        split
        · exact ⟨ha, rfl⟩
        split
        · exact ⟨ha, rfl⟩
        split
        · exact ⟨ha, rfl⟩
        rename_i hnone
        split
        · refine ⟨?_, rfl⟩
          have hne : chat ≠ c.chatId := by
            intro heq
            have : (r.admission? chat).isSome = true := ha ▸ rfl
            exact hnone (heq ▸ this)
          refine (admission?_setLive _ c.chatId _ chat).trans ?_
          rw [if_neg hne]
          exact ha
        · exact ⟨ha, rfl⟩
  | finish admissionId =>
      have hne : a.admissionId ≠ admissionId := fun heq => hfinish (heq ▸ rfl)
      have hruntimes : (r.finish admissionId).runtimes = r.runtimes := by
        unfold Registry.finish
        split
        · rfl
        · dsimp only
          split <;> rfl
      constructor
      · show (r.finish admissionId).admission? chat = some a
        rw [(hr.finish admissionId).2, ha]
        simp [Option.filter, hne]
      · show (r.finish admissionId).pinned? chat = r.pinned? chat
        unfold Registry.pinned?
        rw [hruntimes]
  | changeEnter chatId uuid =>
      show (r.changeEnter chatId uuid).2.admission? chat = _ ∧
        (r.changeEnter chatId uuid).2.pinned? chat = _
      unfold Registry.changeEnter
      dsimp only
      split
      · exact ⟨ha, rfl⟩
      split
      · exact ⟨ha, rfl⟩
      split
      · exact ⟨hset rfl rfl, rfl⟩
      · exact ⟨ha, rfl⟩
  | changeExit k =>
      unfold Registry.step
      dsimp only
      split
      · exact ⟨ha, rfl⟩
      · unfold Registry.changeExit
        dsimp only
        split
        · exact ⟨hset rfl rfl, rfl⟩
        · exact ⟨ha, rfl⟩
  | retireEnter chatId =>
      show (r.retireEnter chatId).2.admission? chat = _ ∧ (r.retireEnter chatId).2.pinned? chat = _
      unfold Registry.retireEnter
      split
      · exact ⟨ha, rfl⟩
      · rename_i live hlive
        split
        · refine ⟨hset rfl ?_, rfl⟩
          unfold liveOf
          rw [hlive]
          rfl
        · exact ⟨ha, rfl⟩
  | retireExit k =>
      unfold Registry.step
      dsimp only
      split
      · exact ⟨ha, rfl⟩
      · unfold Registry.retireExit
        dsimp only
        split
        · exact ⟨hset rfl rfl, rfl⟩
        · exact ⟨ha, rfl⟩
  | setMutation chatId enabled actor expectedRevision now =>
      show (r.setMutation chatId enabled actor expectedRevision now).2.admission? chat = _ ∧
        (r.setMutation chatId enabled actor expectedRevision now).2.pinned? chat = _
      unfold Registry.setMutation
      dsimp only
      split
      · exact ⟨ha, rfl⟩
      split
      · exact ⟨ha, rfl⟩
      rename_i hnone
      split
      · exact ⟨ha, rfl⟩
      · rename_i record t hcas
        -- the guard was held: the chat that changes has no admission
        have hne : chatId ≠ chat := by
          intro heq
          have : (r.admission? chat).isSome = true := ha ▸ rfl
          exact hnone (heq ▸ this)
        refine ⟨ha, ?_⟩
        unfold Registry.pinned?
        rw [(mutationAuthorityCas_eq_ok hcas).2 chat hne]
  | assignCheck chatId identity expectedActionSurface =>
      show (r.assignCheck chatId identity expectedActionSurface).2.admission? chat = _ ∧
        (r.assignCheck chatId identity expectedActionSurface).2.pinned? chat = _
      unfold Registry.assignCheck
      dsimp only
      split
      · exact ⟨ha, rfl⟩
      · exact ⟨ha, rfl⟩
  | assignRefs k threadRefs =>
      unfold Registry.step
      dsimp only
      split
      · exact ⟨ha, rfl⟩
      · unfold Registry.assignRefs
        split
        · exact ⟨ha, rfl⟩
        · exact ⟨ha, rfl⟩
  | assignCommit k now =>
      unfold Registry.step
      dsimp only
      split
      · exact ⟨ha, rfl⟩
      · rename_i c hc
        unfold Registry.assignCommit
        split
        · exact ⟨ha, rfl⟩
        · rename_i record t hassign
          refine ⟨ha, ?_⟩
          obtain ⟨old, hold, hactive, hsurface, -, hfind⟩ := assignIdentity_eq_ok hassign
          unfold Registry.pinned?
          rw [hfind]
          split
          · rename_i heq
            subst heq
            rcases hidle c (Option.filter_eq_some_iff.mp hc).1 with hnone | hsame
            · exact absurd (ha.symm.trans hnone) (by simp)
            · rw [hold]
              simp only [Option.map_some, ChatRuntimeRecord.pinned, identityChange,
                hsame old hold hactive hsurface]
          · rfl
  | lease chatId installed => exact ⟨hset rfl rfl, rfl⟩

/-- **Run admission.**  In every run whose identity assignments commit while no run is
admitted: a chat has at most one admission and its reservation; an admission excludes
a pending settings change and a claimed retirement; and until a `finish_run` with its
own id the admission stays, and with it the durable mutation authority and identity. -/
theorem admission_exclusive {h : List (RuntimeCall × RuntimeReply)} {r : Registry}
    (hrun : (registry repr runtimes).RunWhere Idle h r) :
    (∀ id a id' b, Dict.get? r.reservations id = some a → Dict.get? r.reservations id' = some b →
        a.chatId = b.chatId → a = b) ∧
      (∀ chat a, r.admission? chat = some a →
        a.chatId = chat ∧ Dict.get? r.reservations a.admissionId = some a ∧
          (r.liveOf chat).settingsChangeId = "" ∧ (r.liveOf chat).kernelRetirement = none) ∧
      ∀ later r', (registry repr runtimes).Extends Idle h r later r' →
        ∀ chat a, r.admission? chat = some a →
          RuntimeCall.finish a.admissionId ∉ later.map Prod.fst →
            r'.admission? chat = some a ∧ r'.pinned? chat = r.pinned? chat := by
  have hexclusive := exclusive_of_run hrun.run
  refine ⟨?_, ?_, ?_⟩
  · intro id a id' b ha hb hchat
    have hadm := (hexclusive.reserved id a ha).2
    rw [hchat, (hexclusive.reserved id' b hb).2] at hadm
    exact (Option.some.inj hadm).symm
  · intro chat a ha
    obtain ⟨hchat, hres⟩ := hexclusive.owned chat a ha
    exact ⟨hchat, hres, hexclusive.fenced chat (ha ▸ rfl)⟩
  · intro later r' hext chat a ha
    refine hext.invariant (I := fun later r' => RuntimeCall.finish a.admissionId ∉
      later.map Prod.fst → r'.admission? chat = some a ∧ r'.pinned? chat = r.pinned? chat)
      (fun _ => ⟨ha, rfl⟩) ?_
    intro later r₁ c reply r₂ hext ih hidle hs hnot
    rw [List.map_cons, List.mem_cons, not_or] at hnot
    obtain ⟨ha₁, hpinned⟩ := ih hnot.2
    have hrun₁ := (hrun.extend hext).run
    obtain ⟨ha₂, hpinned₂⟩ := held_step (exclusive_of_run hrun₁) ha₁ hidle hs (Ne.symm hnot.1)
    exact ⟨ha₂, hpinned₂.trans hpinned⟩

end Runs

/-! ## 5.  Two runs -/

/-- An identity with this action surface. -/
def surface (actionSurface : String) : RuntimeIdentity :=
  ⟨actionSurface, "", "", "", "", "", "", "", "", none, "", 0⟩

def quoted (s : String) : String := "'" ++ s ++ "'"

/-- A new identity is on its way. -/
def assigning : List RuntimeCall :=
  [.ensure "chat" (surface "local") 1, .assignCheck "chat" (surface "canary") "local",
    .assignRefs 0 []]

/-- A run is admitted. -/
def admitting : List RuntimeCall :=
  [.reserveCheck "chat" "" false false (surface "local") 2, .reserve 0 "u1" 0 3]

/-- A registry over an empty store. -/
def demo : Machine Registry RuntimeCall RuntimeReply := registry quoted Table.empty

/-- The registry after the check. -/
def checked : List (RuntimeCall × RuntimeReply) × Registry := demo.exec ([], demo.start) assigning

/-- The identity is assigned, then a run is admitted; the authority stays while it runs. -/
theorem admission_exclusive_assigned :
    ∃ h r a, demo.RunWhere Idle h r ∧ r.admission? "chat" = some a ∧
      (demo.exec ([], r) [.setMutation "chat" true "user" none 5]).2.pinned? "chat" =
        r.pinned? "chat" := by
  have hchecked : demo.RunWhere Idle checked.1 checked.2 :=
    (Machine.RunWhere.start (M := demo) (C := Idle)).exec assigning (by simp [assigning, Idle])
  have hnone : (checked.2.assigning[0]?).all fun c => (checked.2.admission? c.chatId).isNone := by
    decide +kernel
  have hidle : Idle checked.1 checked.2 (.assignCommit 0 2) := by
    intro c hc
    rw [hc, Option.all_some] at hnone
    exact .inl (Option.isNone_iff_eq_none.mp hnone)
  have hassigned := Machine.RunWhere.step hchecked hidle Prod.mk.eta.symm
  have hadmitted := hassigned.exec admitting (by simp [admitting, Idle])
  have hsome : ((demo.exec checked (.assignCommit 0 2 :: admitting)).2.admission?
      "chat").isSome = true := by
    decide +kernel
  obtain ⟨a, ha⟩ := Option.isSome_iff_exists.mp hsome
  have hheld := (admission_exclusive hadmitted).2.2 _ _
    (Machine.Extends.refl.exec [.setMutation "chat" true "user" none 5] (by simp [Idle])) "chat" a
    ha (by simp [Machine.exec])
  exact ⟨_, _, a, hadmitted, ha, hheld.2⟩

theorem admission?_assignCommit (repr : String → String) (r : Registry) (k : Nat) (now : ℚ)
    (chat : String) :
    (r.step repr (.assignCommit k now)).2.admission? chat = r.admission? chat := by
  unfold Registry.step
  dsimp only
  split
  · rfl
  · unfold Registry.assignCommit
    split <;> rfl

/-- **An identity changes under an admitted run.**  The run is admitted between the
check and the commit of `assign_identity`. -/
theorem identity_changed_under_run :
    ∃ h r a reply r', demo.Run h r ∧ r.admission? "chat" = some a ∧
      demo.step (.assignCommit 0 4) r = (reply, r') ∧ r'.admission? "chat" = some a ∧
      (r.pinned? "chat").map (·.identity) = some (surface "local") ∧
      (r'.pinned? "chat").map (·.identity) = some (surface "canary") := by
  have hrun := (Machine.Run.start (M := demo)).exec (assigning ++ admitting)
  have hsome : ((demo.exec ([], demo.start) (assigning ++ admitting)).2.admission?
      "chat").isSome = true := by
    decide +kernel
  obtain ⟨a, ha⟩ := Option.isSome_iff_exists.mp hsome
  refine ⟨_, _, a, _, _, hrun, ha, Prod.mk.eta.symm, ?_, by decide +kernel, by decide +kernel⟩
  exact (admission?_assignCommit quoted _ 0 4 "chat").trans ha

end SessionRuntime
end VariantOne
