import VariantOne.Automation.Occurrences
import VariantOne.Lib.Txn

/-!
# Occurrences are consumed once

The store hands out the occurrences of its tasks as claims, and a claim is completed, discarded or released.
`occurrences_consumed_once` says what holds of the store after every run (`ConsumedOnce`): a task has at most
one claim of its schedule outstanding, a claim that was completed or discarded is never active again, a
release makes the occurrence due again, and an operation that raises leaves memory and document as they were.

`Inv` is what every run of the store keeps: memory and document agree, identities are distinct, a disabled
task holds no claim, a claim that is through is held by no task, and an outstanding scheduled claim knows the
run it stands in for, and was due after it.  The operations edit one task (`allOk_edit`), except
`claim_due_tasks`, which runs over all of them (`claimDue_spec`).

Two parts have a condition.  The store does not remember which identities it is through with, so a new claim
has to have an identity that is new to the task (`FreshIds`); `discarded_claim_active_again` is a run where it
has not.  And a release only takes the last run back.  Whether the task is due then is for `is_due` to say,
which reads the trigger and the clock of that time (`Timely`).
-/

namespace VariantOne
namespace Automation

variable {R : Runtime} {env : StoreEnv} {tasks next : List Task} {t t' : Task} {tid : String}

/-! ## Finding and editing -/

theorem findTask_some (h : findTask tasks tid = some t) : t ∈ tasks ∧ t.id = tid :=
  ⟨List.mem_of_find?_eq_some h, by simpa using List.find?_some h⟩

/-- Identities being distinct, a task is the one its identity finds. -/
theorem findTask_of_mem (hids : (tasks.map (·.id)).Nodup) (hmem : t ∈ tasks) :
    findTask tasks t.id = some t := by
  induction tasks with
  | nil => exact absurd hmem List.not_mem_nil
  | cons u us ih =>
      obtain ⟨hu, hus⟩ := List.nodup_cons.mp (List.map_cons ▸ hids)
      rcases List.mem_cons.mp hmem with rfl | hmem
      · simp [findTask]
      · have hne : u.id ≠ t.id := fun h => hu (h ▸ List.mem_map_of_mem hmem)
        simpa [findTask, List.find?_cons, hne] using ih hus hmem

theorem map_id_editTask (f : Task → Task) (hf : ∀ u, u.id = tid → (f u).id = tid) :
    (editTask tid f tasks).map (·.id) = tasks.map (·.id) := by
  induction tasks with
  | nil => rfl
  | cons u us ih =>
      by_cases hu : u.id = tid
      · simp [editTask, hu, hf u hu]
      · simp [editTask, hu, ih]

/-- After an edit a task is the edited one, or an old one with another identity. -/
theorem mem_editTask {f : Task → Task} (hids : (tasks.map (·.id)).Nodup)
    (hmem : t' ∈ editTask tid f tasks) :
    (∃ t, findTask tasks tid = some t ∧ t' = f t) ∨ t' ∈ tasks ∧ t'.id ≠ tid := by
  induction tasks with
  | nil => exact absurd hmem List.not_mem_nil
  | cons u us ih =>
      obtain ⟨hu, hus⟩ := List.nodup_cons.mp (List.map_cons ▸ hids)
      by_cases hid : u.id = tid
      · rw [editTask, if_pos (by simp [hid])] at hmem
        rcases List.mem_cons.mp hmem with rfl | hmem
        · exact .inl ⟨u, by simp [findTask, hid], rfl⟩
        · exact .inr ⟨List.mem_cons_of_mem _ hmem,
            fun h => hu (hid ▸ h ▸ List.mem_map_of_mem hmem)⟩
      · rw [editTask, if_neg (by simp [hid])] at hmem
        rcases List.mem_cons.mp hmem with rfl | hmem
        · exact .inr ⟨List.mem_cons_self, hid⟩
        · rcases ih hus hmem with ⟨t, hfind, rfl⟩ | ⟨hmem, hne⟩
          · exact .inl ⟨t, by simpa [findTask, List.find?_cons, hid] using hfind, rfl⟩
          · exact .inr ⟨List.mem_cons_of_mem _ hmem, hne⟩

theorem findTask_editTask (f : Task → Task) (hf : ∀ u, u.id = tid → (f u).id = tid)
    (h : findTask tasks tid = some t) : findTask (editTask tid f tasks) tid = some (f t) := by
  induction tasks with
  | nil => exact absurd h (by simp [findTask])
  | cons u us ih =>
      by_cases hid : u.id = tid
      · obtain rfl : u = t := by simpa [findTask, List.find?_cons, hid] using h
        simp [editTask, findTask, hid, hf u hid]
      · have hus : findTask us tid = some t := by
          simpa [findTask, List.find?_cons, hid] using h
        simpa [editTask, findTask, List.find?_cons, hid] using ih hus

/-! ## What an operation can do -/

theorem writeTasks_cases {s s' : AutomationStore} {r : Except StoreError Unit}
    (h : writeTasks env next s = (r, s')) :
    (∃ e, r = .error e) ∧ s' = s ∨ r = .ok () ∧ s' = { s with document := next } := by
  unfold writeTasks at h
  split at h
  · obtain ⟨rfl, rfl⟩ := Prod.mk.inj h
    exact .inl ⟨⟨_, rfl⟩, rfl⟩
  split at h
  · obtain ⟨rfl, rfl⟩ := Prod.mk.inj h
    exact .inl ⟨⟨_, rfl⟩, rfl⟩
  · obtain ⟨rfl, rfl⟩ := Prod.mk.inj h
    exact .inr ⟨rfl, rfl⟩

theorem replaceTasks_cases {s s' : AutomationStore} {r : Except StoreError Unit}
    (h : replaceTasks env next s = (r, s')) :
    (∃ e, r = .error e) ∧ s' = s ∨
      r = .ok () ∧ s' = { s with tasks := next, document := next } := by
  unfold replaceTasks at h
  cases hwrite : writeTasks env next s with
  | mk r₁ s₁ =>
    rw [hwrite] at h
    rcases writeTasks_cases hwrite with ⟨⟨e, rfl⟩, rfl⟩ | ⟨rfl, rfl⟩
    · obtain ⟨rfl, rfl⟩ := Prod.mk.inj h
      exact .inl ⟨⟨e, rfl⟩, rfl⟩
    · obtain ⟨rfl, rfl⟩ := Prod.mk.inj h
      exact .inr ⟨rfl, rfl⟩

/-- An operation that raises leaves the tasks and the document; one that returns has
left them too or has replaced both. -/
theorem carryOut_cases {α : Type} {plan : List Task → Except StoreError (Plan α)}
    {s s' : AutomationStore} {r : Except StoreError α} (h : carryOut env plan s = (r, s')) :
    (∃ e, r = .error e) ∧ s' = s ∨ ∃ p, plan s.tasks = .ok p ∧ r = .ok p.answer ∧
      (p.next = none ∧ s' = s ∨
        ∃ next, p.next = some next ∧ s' = { s with tasks := next, document := next }) := by
  unfold carryOut at h
  cases hplan : plan s.tasks with
  | error e =>
      rw [hplan] at h
      obtain ⟨rfl, rfl⟩ := Prod.mk.inj h
      exact .inl ⟨⟨e, rfl⟩, rfl⟩
  | ok p =>
      obtain ⟨answer, next⟩ := p
      rw [hplan] at h
      cases next with
      | none =>
          obtain ⟨rfl, rfl⟩ := Prod.mk.inj h
          exact .inr ⟨_, rfl, rfl, .inl ⟨rfl, rfl⟩⟩
      | some next =>
          dsimp only at h
          cases hreplace : replaceTasks env next s with
          | mk r₁ s₁ =>
            rw [hreplace] at h
            rcases replaceTasks_cases hreplace with ⟨⟨e, rfl⟩, rfl⟩ | ⟨rfl, rfl⟩
            · obtain ⟨rfl, rfl⟩ := Prod.mk.inj h
              exact .inl ⟨⟨e, rfl⟩, rfl⟩
            · obtain ⟨rfl, rfl⟩ := Prod.mk.inj h
              exact .inr ⟨_, rfl, rfl, .inr ⟨next, rfl, rfl⟩⟩

/-! ## The invariant -/

/-- What holds of a task, given the claims that are through. -/
structure TaskOk (R : Runtime) (retired : List (String × String)) (t : Task) : Prop where
  /-- The scheduled claim is none of the trigger claims. -/
  apart : ∀ c, t.scheduledClaim = some c → c.claimId ∉ t.triggerIds
  /-- No claim of the task is through. -/
  alive : ∀ id ∈ t.claimIds, (t.id, id) ∉ retired
  /-- A disabled task holds no claim. -/
  idle : t.enabled = false → t.claimIds = []
  /-- An outstanding occurrence was due, and the last run before it is on record. -/
  occurrence : ∀ c, t.scheduledClaim = some c → t.lastRun = c.occurrenceAt ∧
    isDue R (c.taskSnapshot.schedule c.previousLastRun) c.occurrenceAt = .ok true

/-- What holds of the tasks. -/
structure AllOk (R : Runtime) (retired : List (String × String)) (tasks : List Task) : Prop where
  ids : (tasks.map (·.id)).Nodup
  each : ∀ t ∈ tasks, TaskOk R retired t

/-- What every run keeps. -/
structure Inv (R : Runtime) (w : Watched) : Prop where
  tasks : AllOk R w.retired w.store.tasks
  document : w.store.document = w.store.tasks

theorem claimIds_eq_nil : t.claimIds = [] ↔ t.scheduledClaim = none ∧ t.triggerClaims = [] := by
  cases hs : t.scheduledClaim <;> simp [Task.claimIds, Task.triggerIds, hs]

@[simp] theorem mem_claimIds {id : String} :
    id ∈ t.claimIds ↔ (∃ c, t.scheduledClaim = some c ∧ c.claimId = id) ∨ id ∈ t.triggerIds := by
  cases hs : t.scheduledClaim <;> simp [Task.claimIds, hs, eq_comm]

/-- A task without claims is fine. -/
theorem TaskOk.of_claimIds {retired : List (String × String)} (h : t.claimIds = []) :
    TaskOk R retired t := by
  obtain ⟨hs, -⟩ := claimIds_eq_nil.mp h
  exact ⟨by simp [hs], by simp [h], fun _ => h, by simp [hs]⟩

/-- Editing one task. -/
theorem allOk_edit {retired : List (String × String)} {f : Task → Task} (h : AllOk R retired tasks)
    (hf : ∀ u, u.id = tid → (f u).id = tid)
    (hok : ∀ t, findTask tasks tid = some t → TaskOk R retired (f t)) :
    AllOk R retired (editTask tid f tasks) := by
  refine ⟨by rw [map_id_editTask f hf]; exact h.ids, fun t' hmem => ?_⟩
  rcases mem_editTask h.ids hmem with ⟨t, hfind, rfl⟩ | ⟨hmem, -⟩
  · exact hok t hfind
  · exact h.each t' hmem

/-- More claims are through, and no task holds one of them. -/
theorem AllOk.retire {retired gone : List (String × String)} (h : AllOk R retired tasks)
    (hgone : ∀ t ∈ tasks, ∀ id ∈ t.claimIds, (t.id, id) ∉ gone) :
    AllOk R (gone ++ retired) tasks := by
  refine ⟨h.ids, fun t hmem => ?_⟩
  obtain ⟨hapart, halive, hidle, hoccurrence⟩ := h.each t hmem
  refine ⟨hapart, fun id hid => ?_, hidle, hoccurrence⟩
  rw [List.mem_append]
  exact not_or.mpr ⟨hgone t hmem id hid, halive id hid⟩

/-- Discarded claims are held by no task. -/
theorem discarded_notMem {retired : List (String × String)} (h : AllOk R retired next)
    (hmem : t ∈ next) {id : String} (hid : id ∈ t.claimIds) : (t.id, id) ∉ discarded tasks next := by
  intro hgone
  obtain ⟨u, -, hu⟩ := List.mem_flatMap.mp hgone
  split at hu
  · rename_i hdisabled
    obtain ⟨id', -, hpair⟩ := List.mem_map.mp hu
    obtain ⟨huid, -⟩ := Prod.mk.inj hpair
    rw [huid, findTask_of_mem h.ids hmem] at hdisabled
    have hoff : t.enabled = false := by simpa using hdisabled
    rw [(h.each t hmem).idle hoff] at hid
    exact absurd hid List.not_mem_nil
  · exact absurd hu List.not_mem_nil

/-! ## One task -/

section TaskOk

variable {retired : List (String × String)} (h : TaskOk R retired t)
include h

theorem TaskOk.update (P : Interpreter) (fields : List (String × Json)) :
    TaskOk R retired (t.update P fields) := by
  unfold Task.update
  dsimp only
  split
  · rename_i hon
    exact ⟨h.apart, h.alive, fun hoff => absurd hon (by rw [hoff]; exact Bool.false_ne_true),
      h.occurrence⟩
  · exact .of_claimIds rfl

theorem TaskOk.addTrigger {claim : TriggerClaim} (hon : t.enabled = true)
    (hfresh : (t.id, claim.claimId) ∉ retired)
    (hapart : ∀ c, t.scheduledClaim = some c → c.claimId ≠ claim.claimId) :
    TaskOk R retired { t with triggerClaims := t.triggerClaims ++ [claim] } := by
  refine ⟨fun c hc => ?_, fun id hid => ?_, fun hoff => absurd (hon.symm.trans hoff) (by simp),
    h.occurrence⟩
  · have := h.apart c hc
    simpa [Task.triggerIds] using ⟨by simpa [Task.triggerIds] using this, hapart c hc⟩
  · rcases mem_claimIds.mp hid with hc | hid
    · exact h.alive id (mem_claimIds.mpr (.inl hc))
    · simp only [Task.triggerIds, List.map_append, List.mem_append] at hid
      rcases hid with hid | hid
      · exact h.alive id (mem_claimIds.mpr (.inr hid))
      · obtain rfl : id = claim.claimId := by simpa using hid
        exact hfresh

/-- Fewer trigger claims. -/
theorem TaskOk.subset (hid : t'.id = t.id) (hon : t'.enabled = t.enabled)
    (hscheduled : t'.scheduledClaim = t.scheduledClaim) (hrun : t'.lastRun = t.lastRun)
    (hsub : t'.triggerIds ⊆ t.triggerIds) : TaskOk R retired t' := by
  have hclaims : t'.claimIds ⊆ t.claimIds := fun id h => by
    rw [mem_claimIds, hscheduled] at h
    exact mem_claimIds.mpr (h.imp_right fun h => hsub h)
  refine ⟨fun c hc hmem => h.apart c (hscheduled ▸ hc) (hsub hmem),
    fun id hmem => hid ▸ h.alive id (hclaims hmem), fun hoff => ?_,
    fun c hc => hrun ▸ h.occurrence c (hscheduled ▸ hc)⟩
  exact List.subset_nil.mp (h.idle (hon ▸ hoff) ▸ hclaims)

theorem TaskOk.completeTrigger {claimId status : String}
    (hdone : t.completeTrigger claimId status = some t') :
    TaskOk R retired t' ∧ t'.id = t.id ∧ claimId ∉ t'.claimIds := by
  unfold Task.completeTrigger at hdone
  dsimp only at hdone
  split at hdone
  · exact absurd hdone (by simp)
  · rename_i hlength
    obtain rfl := Option.some.inj hdone
    refine ⟨h.subset rfl rfl rfl rfl fun id hid => ?_, rfl, fun hmem => ?_⟩
    · obtain ⟨d, hd, rfl⟩ := List.mem_map.mp hid
      exact List.mem_map_of_mem (List.mem_filter.mp hd).1
    · rcases mem_claimIds.mp hmem with ⟨c, hc, rfl⟩ | hmem
      · -- Then no trigger claim has this identity, and nothing was filtered out.
        refine hlength (congrArg List.length (List.filter_eq_self.mpr fun d hd => ?_))
        exact decide_eq_true fun heq => h.apart c hc (heq ▸ List.mem_map_of_mem hd)
      · obtain ⟨d, hd, rfl⟩ := List.mem_map.mp hmem
        simpa using (List.mem_filter.mp hd).2

/-- The scheduled claim is gone. -/
theorem TaskOk.onScheduledClaim {claimId : String} {f : ScheduledClaim → Task → Task}
    (hdone : t.onScheduledClaim claimId f = some t')
    (hf : ∀ c u, u.scheduledClaim = none → (f c u).id = u.id ∧ (f c u).enabled = u.enabled ∧
      (f c u).scheduledClaim = none ∧ (f c u).triggerClaims = u.triggerClaims) :
    ∃ c, t.scheduledClaim = some c ∧ c.claimId = claimId ∧ t' = f c { t with scheduledClaim := none } ∧
      TaskOk R retired t' ∧ t'.id = t.id ∧ claimId ∉ t'.claimIds := by
  unfold Task.onScheduledClaim at hdone
  cases hc : t.scheduledClaim with
  | none => rw [hc] at hdone; exact absurd hdone (by simp)
  | some c =>
      rw [hc] at hdone
      dsimp only at hdone
      split at hdone
      · exact absurd hdone (by simp)
      · rename_i hid
        obtain rfl : c.claimId = claimId := not_not.mp hid
        obtain rfl := Option.some.inj hdone
        obtain ⟨hid', hon', hnone, htriggers⟩ := hf c { t with scheduledClaim := none } rfl
        have hclaims (id : String) (hmem : id ∈ (f c { t with scheduledClaim := none }).claimIds) :
            id ∈ t.triggerIds := by
          rcases mem_claimIds.mp hmem with ⟨d, hd, -⟩ | hmem
          · exact absurd (hnone.symm.trans hd) (by simp)
          · rwa [Task.triggerIds, htriggers] at hmem
        refine ⟨c, rfl, rfl, rfl, ⟨by simp [hnone], fun id hmem => ?_, fun hoff => ?_,
          by simp [hnone]⟩, hid', fun hmem => h.apart c hc (hclaims _ hmem)⟩
        · exact hid' ▸ h.alive id (mem_claimIds.mpr (.inr (hclaims id hmem)))
        · have := h.idle (hon' ▸ hoff)
          refine List.eq_nil_iff_forall_not_mem.mpr fun id hmem => ?_
          exact absurd (this ▸ mem_claimIds.mpr (.inr (hclaims id hmem))) List.not_mem_nil

theorem TaskOk.claimed {claimId : String} {now time : ℚ}
    (hdue : isDue R (t.schedule t.lastRun) now = .ok true)
    (hfresh : (t.id, claimId) ∉ retired ∧ claimId ∉ t.triggerIds) :
    TaskOk R retired (t.claimed claimId now time) := by
  have hon : t.enabled = true := by
    cases hon : t.enabled with
    | true => rfl
    | false =>
        have : isDue R (t.schedule t.lastRun) now = .ok false := by
          simp [isDue, TaskSnapshot.schedule, hon, pure, Except.pure]
        exact absurd (this.symm.trans hdue) (by simp)
  refine ⟨fun c hc => ?_, fun id hid => ?_, fun hoff => absurd (hon.symm.trans hoff) (by simp),
    fun c hc => ?_⟩
  · obtain rfl := Option.some.inj hc
    exact hfresh.2
  · rcases mem_claimIds.mp hid with ⟨c, hc, rfl⟩ | hid
    · obtain rfl := Option.some.inj hc
      exact hfresh.1
    · exact h.alive id (mem_claimIds.mpr (.inr hid))
  · obtain rfl := Option.some.inj hc
    exact ⟨rfl, hdue⟩

end TaskOk

/-! ## The operations -/

/-- What was asked of the store and what came of it, newest first. -/
abbrev StoreLog := List (StoreCall × Except StoreError StoreAnswer)

/-- A step that names something new uses a new name: the random draws repeat nothing,
and no caller admits a trigger under an identity its task is through with or that its
scheduled claim has. -/
def FreshIds (_ : StoreLog) (w : Watched) (call : StoreCall) : Prop :=
  match call.op with
  | .add _ => call.env.token 1 ∉ w.store.tasks.map (·.id)
  | .admitTrigger a => (a.tid, a.identity call.env) ∉ w.retired ∧
      ∀ t c, findTask w.store.tasks a.tid = some t → t.scheduledClaim = some c →
        c.claimId ≠ a.identity call.env
  | .claimDueTasks _ => ∀ t ∈ w.store.tasks, ∀ n,
      (t.id, scheduledId t.id (call.env.token n)) ∉ w.retired ∧
        scheduledId t.id (call.env.token n) ∉ t.triggerIds
  | _ => True

section Plans

variable {retired : List (String × String)}

/-- What the plan keeps, the operation keeps. -/
theorem carryOut_allOk {α : Type} {plan : List Task → Except StoreError (Plan α)}
    {s s' : AutomationStore} {r : Except StoreError α} (h : carryOut env plan s = (r, s'))
    (hok : AllOk R retired s.tasks) (hdocument : s.document = s.tasks)
    (hplan : ∀ p next, plan s.tasks = .ok p → p.next = some next → AllOk R retired next) :
    AllOk R retired s'.tasks ∧ s'.document = s'.tasks := by
  rcases carryOut_cases h with ⟨-, rfl⟩ | ⟨p, hp, -, ⟨-, rfl⟩ | ⟨next, hnext, rfl⟩⟩
  · exact ⟨hok, hdocument⟩
  · exact ⟨hok, hdocument⟩
  · exact ⟨hplan p next hp hnext, rfl⟩

theorem editPlan_cases {f : Task → Option Task} {p : Plan Bool}
    (h : editPlan tid f tasks = .ok p) : p = ⟨false, none⟩ ∨ ∃ t t',
      findTask tasks tid = some t ∧ f t = some t' ∧
        p = ⟨true, some (editTask tid (fun _ => t') tasks)⟩ := by
  unfold editPlan at h
  cases hfind : findTask tasks tid with
  | none =>
      rw [hfind] at h
      exact .inl (Except.ok.inj h).symm
  | some t =>
      rw [hfind, Option.bind_some] at h
      cases hf : f t with
      | none =>
          rw [hf] at h
          exact .inl (Except.ok.inj h).symm
      | some t' =>
          rw [hf] at h
          exact .inr ⟨t, t', rfl, hf, (Except.ok.inj h).symm⟩

theorem allOk_editPlan {f : Task → Option Task} {p : Plan Bool} (hok : AllOk R retired tasks)
    (hf : ∀ t t', TaskOk R retired t → f t = some t' → TaskOk R retired t' ∧ t'.id = t.id)
    (h : editPlan tid f tasks = .ok p) (hnext : p.next = some next) : AllOk R retired next := by
  rcases editPlan_cases h with rfl | ⟨t, t', hfind, ht, rfl⟩
  · exact absurd hnext (by simp)
  · obtain rfl := Option.some.inj hnext
    obtain ⟨hmem, hid⟩ := findTask_some hfind
    obtain ⟨hok', hid'⟩ := hf t t' (hok.each t hmem) ht
    exact allOk_edit hok (fun _ _ => hid'.trans hid) fun _ _ => hok'

theorem allOk_addPlan {a : AddArgs} {p : Plan Task} (hok : AllOk R retired tasks)
    (hfresh : env.token 1 ∉ tasks.map (·.id)) (h : addPlan env a tasks = .ok p)
    (hnext : p.next = some next) : AllOk R retired next := by
  obtain rfl := Except.ok.inj h
  obtain rfl := Option.some.inj hnext
  refine ⟨?_, fun t hmem => ?_⟩
  · rw [List.map_append]
    exact List.nodup_append.mpr ⟨hok.ids, by simp, by simpa using hfresh⟩
  · rcases List.mem_append.mp hmem with hmem | hmem
    · exact hok.each t hmem
    · obtain rfl := List.mem_singleton.mp hmem
      exact .of_claimIds rfl

theorem allOk_pinModelRoutePlan {route : Json} {p : Plan Json} (hok : AllOk R retired tasks)
    (h : pinModelRoutePlan tid route tasks = .ok p) (hnext : p.next = some next) :
    AllOk R retired next := by
  unfold pinModelRoutePlan at h
  split at h
  · obtain rfl := Except.ok.inj h
    exact absurd hnext (by simp)
  split at h
  · obtain rfl := Except.ok.inj h
    exact absurd hnext (by simp)
  · obtain rfl := Except.ok.inj h
    obtain rfl := Option.some.inj hnext
    refine allOk_edit hok (fun _ hid => hid) fun t hfind => ?_
    exact (hok.each t (findTask_some hfind).1).subset rfl rfl rfl rfl (List.Subset.refl _)

theorem allOk_removePlan {p : Plan Bool} (hok : AllOk R retired tasks)
    (h : removePlan tid tasks = .ok p) (hnext : p.next = some next) : AllOk R retired next := by
  unfold removePlan at h
  dsimp only at h
  split at h
  · obtain rfl := Except.ok.inj h
    exact absurd hnext (by simp)
  · obtain rfl := Except.ok.inj h
    obtain rfl := Option.some.inj hnext
    refine ⟨hok.ids.sublist (List.filter_sublist.map _), fun t hmem => ?_⟩
    exact hok.each t (List.mem_filter.mp hmem).1

theorem allOk_admitTriggerPlan {a : TriggerArgs} {p : Plan TriggerClaim}
    (hok : AllOk R retired tasks) (hfresh : (a.tid, a.identity env) ∉ retired)
    (hapart : ∀ t c, findTask tasks a.tid = some t → t.scheduledClaim = some c →
      c.claimId ≠ a.identity env)
    (h : admitTriggerPlan env a tasks = .ok p) (hnext : p.next = some next) :
    AllOk R retired next := by
  unfold admitTriggerPlan at h
  split at h
  · exact absurd h (by simp)
  rename_i t hfind
  obtain ⟨hmem, hid⟩ := findTask_some hfind
  split at h
  · exact absurd h (by simp)
  rename_i hon
  split at h
  · split at h
    · exact absurd h (by simp)
    · obtain rfl := Except.ok.inj h
      exact absurd hnext (by simp)
  split at h
  · exact absurd h (by simp)
  obtain rfl := Except.ok.inj h
  obtain rfl := Option.some.inj hnext
  refine allOk_edit hok (fun _ hid => hid) fun u hu => ?_
  obtain rfl : t = u := Option.some.inj (hfind.symm.trans hu)
  exact (hok.each t hmem).addTrigger (by simpa using hon) (hid ▸ hfresh)
    fun c hc => hapart t c hfind hc

theorem allOk_drained (hok : AllOk R retired tasks) (h : drainedTasks tasks = some next) :
    AllOk R retired next := by
  -- A disabled task holds no claim, so there is nothing to drain.
  have hidle : (tasks.all fun t => t.enabled || t.claimIds.isEmpty) = true := by
    refine List.all_eq_true.mpr fun t hmem => ?_
    cases hon : t.enabled with
    | true => rfl
    | false => rw [(hok.each t hmem).idle hon]; rfl
  rw [drainedTasks, if_pos hidle] at h
  exact absurd h (by simp)

/-- The loop passes a task by, or claims its occurrence. -/
theorem claimDue_cons {now : ℚ} {claims : List (String × Task)} {n : Nat}
    (h : claimDue R env now n (t :: tasks) = .ok (next, claims)) :
    (∃ rest, claimDue R env now n tasks = .ok (rest, claims) ∧ next = t :: rest) ∨
    t.scheduledClaim = none ∧ isDue R (t.schedule t.lastRun) now = .ok true ∧
      ∃ rest claims', claimDue R env now (n + 1) tasks = .ok (rest, claims') ∧
        next = t.claimed (scheduledId t.id (env.token n)) now env.time :: rest ∧
        claims = (scheduledId t.id (env.token n),
          t.claimed (scheduledId t.id (env.token n)) now env.time) :: claims' := by
  unfold claimDue at h
  split at h
  · obtain ⟨⟨rest, claims'⟩, hrest, hpair⟩ := except_bind_eq_ok.mp h
    obtain ⟨rfl, rfl⟩ := Prod.mk.inj (Except.ok.inj hpair)
    exact .inl ⟨rest, hrest, rfl⟩
  · rename_i hfree
    obtain ⟨due, hdue, h⟩ := except_bind_eq_ok.mp h
    split at h
    · rename_i hcond
      obtain ⟨rfl, -⟩ := hcond
      obtain ⟨⟨rest, claims'⟩, hrest, hpair⟩ := except_bind_eq_ok.mp h
      obtain ⟨rfl, rfl⟩ := Prod.mk.inj (Except.ok.inj hpair)
      exact .inr ⟨by simpa using hfree, hdue, rest, claims', hrest, rfl, rfl⟩
    · obtain ⟨⟨rest, claims'⟩, hrest, hpair⟩ := except_bind_eq_ok.mp h
      obtain ⟨rfl, rfl⟩ := Prod.mk.inj (Except.ok.inj hpair)
      exact .inl ⟨rest, hrest, rfl⟩

/-- A claim of `claim_due_tasks`: the occurrence of a due task that had none outstanding. -/
def ClaimedAt (R : Runtime) (tasks : List Task) (now : ℚ) (claim : String × Task) : Prop :=
  ∃ t ∈ tasks, ∃ token time, t.scheduledClaim = none ∧
    isDue R (t.schedule t.lastRun) now = .ok true ∧ claim.1 = scheduledId t.id token ∧
    claim.2 = t.claimed claim.1 now time

/-- `claim_due_tasks` over the tasks. -/
theorem claimDue_spec {now : ℚ} {claims : List (String × Task)} {n : Nat}
    (h : claimDue R env now n tasks = .ok (next, claims)) :
    next.map (·.id) = tasks.map (·.id) ∧ (claims.map (·.2.id)).Sublist (tasks.map (·.id)) ∧
      (∀ c ∈ claims, c.2 ∈ next ∧ ClaimedAt R tasks now c) ∧
      ∀ t' ∈ next, t' ∈ tasks ∨ ∃ t ∈ tasks, ∃ m, isDue R (t.schedule t.lastRun) now = .ok true ∧
        t' = t.claimed (scheduledId t.id (env.token m)) now env.time := by
  induction tasks generalizing n next claims with
  | nil =>
      obtain ⟨rfl, rfl⟩ := Prod.mk.inj (Except.ok.inj h)
      simp
  | cons t ts ih =>
      rcases claimDue_cons h with ⟨rest, hrest, rfl⟩ |
        ⟨hfree, hdue, rest, claims', hrest, rfl, rfl⟩
      · obtain ⟨hids, hsub, hclaims, hnext⟩ := ih hrest
        refine ⟨by simp [hids], hsub.cons _, fun c hc => ?_, fun t' hmem => ?_⟩
        · obtain ⟨hmem, u, hu, hat⟩ := hclaims c hc
          exact ⟨List.mem_cons_of_mem _ hmem, u, List.mem_cons_of_mem _ hu, hat⟩
        · rcases List.mem_cons.mp hmem with rfl | hmem
          · exact .inl List.mem_cons_self
          · rcases hnext t' hmem with hmem | ⟨u, hu, hat⟩
            · exact .inl (List.mem_cons_of_mem _ hmem)
            · exact .inr ⟨u, List.mem_cons_of_mem _ hu, hat⟩
      · obtain ⟨hids, hsub, hclaims, hnext⟩ := ih hrest
        refine ⟨by simp [hids, Task.claimed], hsub.cons_cons t.id, fun c hc => ?_,
          fun t' hmem => ?_⟩
        · rcases List.mem_cons.mp hc with rfl | hc
          · exact ⟨List.mem_cons_self, t, List.mem_cons_self, _, _, hfree, hdue, rfl, rfl⟩
          · obtain ⟨hmem, u, hu, hat⟩ := hclaims c hc
            exact ⟨List.mem_cons_of_mem _ hmem, u, List.mem_cons_of_mem _ hu, hat⟩
        · rcases List.mem_cons.mp hmem with rfl | hmem
          · exact .inr ⟨t, List.mem_cons_self, n, hdue, rfl⟩
          · rcases hnext t' hmem with hmem | ⟨u, hu, hat⟩
            · exact .inl (List.mem_cons_of_mem _ hmem)
            · exact .inr ⟨u, List.mem_cons_of_mem _ hu, hat⟩

theorem claimDueTasksPlan_eq_ok {now : Option ℚ} {p : Plan (List (String × Task))}
    (h : claimDueTasksPlan R env now tasks = .ok p) : ∃ all,
      claimDue R env (now.getD env.time) 0 tasks = .ok (all, p.answer) ∧
        (p.next = none ∧ p.answer = [] ∨ p.next = some all) := by
  unfold claimDueTasksPlan at h
  split at h
  · exact absurd h (by simp)
  · rename_i all claims hclaims
    obtain rfl := Except.ok.inj h
    refine ⟨all, hclaims, ?_⟩
    by_cases hnone : claims = []
    · exact .inl ⟨if_pos hnone, hnone⟩
    · exact .inr (if_neg hnone)

theorem allOk_claimDueTasksPlan {now : Option ℚ} {p : Plan (List (String × Task))}
    (hok : AllOk R retired tasks)
    (hfresh : ∀ t ∈ tasks, ∀ n, (t.id, scheduledId t.id (env.token n)) ∉ retired ∧
      scheduledId t.id (env.token n) ∉ t.triggerIds)
    (h : claimDueTasksPlan R env now tasks = .ok p) (hnext : p.next = some next) :
    AllOk R retired next := by
  obtain ⟨all, hclaims, hall⟩ := claimDueTasksPlan_eq_ok h
  obtain rfl : all = next := by
    rcases hall with ⟨hnone, -⟩ | hsome
    · exact absurd (hnone.symm.trans hnext) (by simp)
    · exact Option.some.inj (hsome.symm.trans hnext)
  obtain ⟨hids, -, -, hmem⟩ := claimDue_spec hclaims
  refine ⟨hids ▸ hok.ids, fun t' ht' => ?_⟩
  rcases hmem t' ht' with ht' | ⟨t, ht, m, hdue, rfl⟩
  · exact hok.each t' ht'
  · exact (hok.each t ht).claimed hdue (hfresh t ht m)

end Plans

/-! ## Runs -/

theorem named_eq {α : Type} {f : α → StoreAnswer} {p : Except StoreError α × AutomationStore}
    {r : Except StoreError StoreAnswer} {s' : AutomationStore} (h : named f p = (r, s')) :
    ∃ r₁, p = (r₁, s') ∧ r = r₁.map f :=
  ⟨p.1, by rw [← (Prod.mk.inj h).2], (Prod.mk.inj h).1.symm⟩

/-- What an operation does to the tasks, before it is noted what it is through with. -/
theorem perform_allOk {w : Watched} {h : StoreLog} {op : StoreOp}
    {r : Except StoreError StoreAnswer} {s' : AutomationStore} (hinv : Inv R w)
    (hfresh : FreshIds h w ⟨env, op⟩) (hs : op.perform R env w.store = (r, s')) :
    AllOk R w.retired s'.tasks ∧ s'.document = s'.tasks := by
  obtain ⟨hok, hdocument⟩ := hinv
  cases op with
  | add a =>
      obtain ⟨r₁, hs, -⟩ := named_eq hs
      exact carryOut_allOk hs hok hdocument fun p next => allOk_addPlan hok hfresh
  | update tid fields =>
      obtain ⟨r₁, hs, -⟩ := named_eq hs
      refine carryOut_allOk hs hok hdocument fun p next => allOk_editPlan hok fun t t' ht hf => ?_
      obtain rfl := Option.some.inj hf
      exact ⟨ht.update R.python fields, by unfold Task.update; dsimp only; split <;> rfl⟩
  | pinModelRoute tid route =>
      obtain ⟨r₁, hs, -⟩ := named_eq hs
      exact carryOut_allOk hs hok hdocument fun p next => allOk_pinModelRoutePlan hok
  | remove tid =>
      obtain ⟨r₁, hs, -⟩ := named_eq hs
      exact carryOut_allOk hs hok hdocument fun p next => allOk_removePlan hok
  | admitTrigger a =>
      obtain ⟨r₁, hs, -⟩ := named_eq hs
      exact carryOut_allOk hs hok hdocument fun p next =>
        allOk_admitTriggerPlan hok hfresh.1 hfresh.2
  | completeTriggerClaim tid claimId status =>
      obtain ⟨r₁, hs, -⟩ := named_eq hs
      refine carryOut_allOk hs hok hdocument fun p next => allOk_editPlan hok fun t t' ht hf => ?_
      obtain ⟨hok', hid, -⟩ := ht.completeTrigger hf
      exact ⟨hok', hid⟩
  | recoverTriggerClaims =>
      obtain ⟨r₁, hs, -⟩ := named_eq hs
      refine carryOut_allOk hs hok hdocument fun p next hp hnext => ?_
      obtain rfl := Except.ok.inj hp
      exact allOk_drained hok hnext
  | claimDueTasks now =>
      obtain ⟨r₁, hs, -⟩ := named_eq hs
      exact carryOut_allOk hs hok hdocument fun p next => allOk_claimDueTasksPlan hok hfresh
  | recoverScheduledClaims =>
      obtain ⟨r₁, hs, -⟩ := named_eq hs
      refine carryOut_allOk hs hok hdocument fun p next hp hnext => ?_
      obtain rfl := Except.ok.inj hp
      exact allOk_drained hok hnext
  | completeScheduledClaim tid claimId status =>
      obtain ⟨r₁, hs, -⟩ := named_eq hs
      refine carryOut_allOk hs hok hdocument fun p next => allOk_editPlan hok fun t t' ht hf => ?_
      obtain ⟨-, -, -, -, hok', hid, -⟩ :=
        ht.onScheduledClaim hf fun _ _ hnone => ⟨rfl, rfl, hnone, rfl⟩
      exact ⟨hok', hid⟩
  | releaseSkippedScheduledClaim tid claimId =>
      obtain ⟨r₁, hs, -⟩ := named_eq hs
      refine carryOut_allOk hs hok hdocument fun p next => allOk_editPlan hok fun t t' ht hf => ?_
      obtain ⟨-, -, -, -, hok', hid, -⟩ :=
        ht.onScheduledClaim hf fun _ _ hnone => ⟨rfl, rfl, hnone, rfl⟩
      exact ⟨hok', hid⟩
  | load =>
      obtain ⟨r₁, hs, -⟩ := named_eq hs
      unfold AutomationStore.load at hs
      split at hs
      · obtain ⟨-, rfl⟩ := Prod.mk.inj hs
        exact ⟨hok, hdocument⟩
      · obtain ⟨-, rfl⟩ := Prod.mk.inj hs
        exact ⟨hdocument ▸ hok, rfl⟩
  | save =>
      obtain ⟨r₁, hs, -⟩ := named_eq hs
      rcases writeTasks_cases hs with ⟨-, rfl⟩ | ⟨-, rfl⟩
      · exact ⟨hok, hdocument⟩
      · exact ⟨hok, rfl⟩

/-- An edit that returned `True`. -/
theorem editPlan_true {f : Task → Option Task} {s s' : AutomationStore}
    (h : carryOut env (editPlan tid f) s = (.ok true, s')) : ∃ t t',
      findTask s.tasks tid = some t ∧ f t = some t' ∧
        s'.tasks = editTask tid (fun _ => t') s.tasks := by
  rcases carryOut_cases h with ⟨⟨e, he⟩, -⟩ | ⟨p, hp, hr, hcase⟩
  · exact absurd he (by simp)
  · rcases editPlan_cases hp with rfl | ⟨t, t', hfind, hf, rfl⟩
    · exact absurd (Except.ok.inj hr) (by simp)
    · rcases hcase with ⟨hnone, -⟩ | ⟨next, hnext, rfl⟩
      · exact absurd hnone (by simp)
      · obtain rfl := Option.some.inj hnext
        exact ⟨t, t', hfind, hf, rfl⟩

/-- A claim that was completed is held by no task. -/
theorem completed_notMem {retired : List (String × String)} {claimId : String}
    {f : Task → Option Task} {s s' : AutomationStore} (hok : AllOk R retired s.tasks)
    (h : carryOut env (editPlan tid f) s = (.ok true, s'))
    (hf : ∀ t t', TaskOk R retired t → f t = some t' → claimId ∉ t'.claimIds) :
    ∀ t ∈ s'.tasks, ∀ id ∈ t.claimIds, (t.id, id) ∉ [(tid, claimId)] := by
  obtain ⟨t, t', hfind, ht, htasks⟩ := editPlan_true h
  obtain ⟨hmem, -⟩ := findTask_some hfind
  intro u hu id hid hgone
  obtain ⟨hidu, rfl⟩ := Prod.mk.inj (List.mem_singleton.mp hgone)
  rcases mem_editTask hok.ids (htasks ▸ hu) with ⟨-, -, rfl⟩ | ⟨-, hne⟩
  · exact hf t _ (hok.each t hmem) ht hid
  · exact hne hidu

/-- What an operation is through with is held by no task. -/
theorem retires_notMem {w : Watched} {op : StoreOp} {r : Except StoreError StoreAnswer}
    {s' : AutomationStore} (hinv : Inv R w) (hok : AllOk R w.retired s'.tasks)
    (hs : op.perform R env w.store = (r, s')) :
    ∀ t ∈ s'.tasks, ∀ id ∈ t.claimIds, (t.id, id) ∉ op.retires w.store.tasks s'.tasks r := by
  intro t hmem id hid
  cases op with
  | completeTriggerClaim tid claimId status =>
      obtain ⟨r₁, hcarry, rfl⟩ := named_eq hs
      rcases r₁ with e | flag
      · exact List.not_mem_nil
      cases flag with
      | false => exact List.not_mem_nil
      | true =>
          refine completed_notMem hinv.tasks hcarry (fun t t' ht hf => ?_) t hmem id hid
          exact (ht.completeTrigger hf).2.2
  | completeScheduledClaim tid claimId status =>
      obtain ⟨r₁, hcarry, rfl⟩ := named_eq hs
      rcases r₁ with e | flag
      · exact List.not_mem_nil
      cases flag with
      | false => exact List.not_mem_nil
      | true =>
          refine completed_notMem hinv.tasks hcarry (fun t t' ht hf => ?_) t hmem id hid
          obtain ⟨-, -, -, -, -, -, hgone⟩ :=
            ht.onScheduledClaim hf fun _ _ hnone => ⟨rfl, rfl, hnone, rfl⟩
          exact hgone
  | update tid fields => exact discarded_notMem hok hmem hid
  | recoverTriggerClaims => exact discarded_notMem hok hmem hid
  | recoverScheduledClaims => exact discarded_notMem hok hmem hid
  | _ => exact List.not_mem_nil

/-- **The step lemma.** -/
theorem inv_step {w w' : Watched} {h : StoreLog} {call : StoreCall}
    {r : Except StoreError StoreAnswer} (hinv : Inv R w) (hfresh : FreshIds h w call)
    (hs : (automations R).step call w = (r, w')) : Inv R w' := by
  obtain ⟨env, op⟩ := call
  obtain ⟨hr, rfl⟩ := Prod.mk.inj hs
  obtain ⟨hok, hdocument⟩ := perform_allOk hinv hfresh rfl
  exact ⟨hok.retire (retires_notMem hinv hok rfl), hdocument⟩

/-- The run lemma. -/
theorem inv_of_run {w : Watched} {h : StoreLog} (hrun : (automations R).RunWhere FreshIds h w) :
    Inv R w :=
  hrun.invariant (I := fun _ w => Inv R w)
    ⟨⟨by simp [automations], by simp [automations]⟩, rfl⟩
    fun _ _ _ _ _ _ hinv hfresh hs => inv_step hinv hfresh hs

/-- What is through stays through. -/
theorem retired_of_extends {w w' : Watched} {h later : StoreLog}
    {C : StoreLog → Watched → StoreCall → Prop} {p : String × String} (hp : p ∈ w.retired)
    (hext : (automations R).Extends C h w later w') :
    p ∈ w'.retired := by
  refine hext.invariant (I := fun _ w' => p ∈ w'.retired) hp fun later w₁ call r w₂ _ hp _ hs => ?_
  obtain ⟨-, rfl⟩ := Prod.mk.inj hs
  exact List.mem_append_right _ hp

/-- A claim that no task holds is not active. -/
theorem claimIsActive_eq_false {P : Interpreter} {claimId kind : String}
    (h : ∀ t, findTask tasks tid = some t → strip claimId ∉ t.claimIds) :
    claimIsActive P tasks tid claimId kind = false := by
  unfold claimIsActive
  dsimp only
  split
  · rfl
  split
  · rfl
  rename_i t hfind
  have hid := h t hfind
  rw [mem_claimIds, not_or] at hid
  split
  · rfl
  split
  · rename_i hscheduled
    obtain ⟨c, hc, hcid⟩ := Option.map_eq_some_iff.mp hscheduled.2
    exact absurd ⟨c, hc, hcid⟩ hid.1
  split
  · simpa using hid.2
  · rfl

/-! ## The contract -/

/-- At this time the scheduler still looks for the occurrence of a claim: the schedule of the task is the one
it was claimed under, the clock has not gone back, and the occurrence is there or a later one is. -/
structure Timely (R : Runtime) (t : Task) (c : ScheduledClaim) (now : ℚ) : Prop where
  trigger : t.trigger = c.taskSnapshot.trigger
  policy : t.misfirePolicy = c.taskSnapshot.misfirePolicy
  clock : c.occurrenceAt ≤ now
  shown : ∀ d, (t.schedule t.lastRun).occurrence R c.occurrenceAt = some d →
    ∃ d', (t.schedule t.lastRun).occurrence R now = some d' ∧ d ≤ d'

/-- With the last run taken back, the task is due again. -/
theorem Timely.isDue {c : ScheduledClaim} {now : ℚ} (h : Timely R t c now) (hon : t.enabled = true)
    (hclaimed : isDue R (c.taskSnapshot.schedule c.previousLastRun) c.occurrenceAt = .ok true) :
    isDue R (t.schedule c.previousLastRun) now = .ok true := by
  obtain ⟨-, ⟨seconds, hinterval, hpassed⟩ | ⟨d, hd, hafter⟩⟩ := isDue_iff.mp hclaimed
  · have hsame : IntervalOf R t.trigger seconds := by
      rw [h.trigger]
      exact hinterval
    exact isDue_iff.mpr ⟨hon, .inl ⟨seconds, hsame, hpassed.trans (sub_le_sub_right h.clock _)⟩⟩
  · obtain ⟨d', hd', hle⟩ := h.shown d ((occurrence_congr h.trigger h.policy _).trans hd)
    have hlater : (t.schedule c.previousLastRun).occurrence R now = some d' :=
      (occurrence_congr rfl rfl _).trans hd'
    exact isDue_iff.mpr ⟨hon, .inr ⟨d', hlater, hafter.trans_le hle⟩⟩

/-- A calendar trigger that nobody edits: with the policy `latest` a release is always in time, with `skip` it
is on the day of the claim. -/
theorem timely_of_calendar (hC : R.calendar.Forward) {c : ScheduledClaim} {rule : CalendarRule} {hh mm : Int}
    (hat : CalendarAt R t.trigger rule hh mm) (hshown : ∀ d, Occurs rule hh mm d → R.calendar.Shows d)
    (htrigger : t.trigger = c.taskSnapshot.trigger) (hpolicy : t.misfirePolicy = c.taskSnapshot.misfirePolicy)
    {now : ℚ} (hclock : c.occurrenceAt ≤ now) {l l' : LocalTime}
    (hl : R.calendar.fromTimestamp c.occurrenceAt = some l) (hl' : R.calendar.fromTimestamp now = some l')
    (hday : (t.schedule t.lastRun).policy R = "latest" ∨ l'.day = l.day) : Timely R t c now where
  trigger := htrigger
  policy := hpolicy
  clock := hclock
  shown _ hd := occurrence_later hC (s := t.schedule t.lastRun) hat hshown hl hl' hclock hday hd

/-- What holds of the store after a run. -/
structure ConsumedOnce (R : Runtime) (h : StoreLog) (w : Watched) : Prop where
  /-- `claim_due_tasks` claims at most one occurrence of a task, of one that is due and
  has none outstanding. -/
  one : ∀ env now claims w',
    (automations R).step ⟨env, .claimDueTasks now⟩ w = (.ok (.claims claims), w') →
    (claims.map (·.2.id)).Nodup ∧ ∀ c ∈ claims, ClaimedAt R w.store.tasks (now.getD env.time) c
  /-- A claim that was completed or discarded is never active again. -/
  final : ∀ p ∈ w.retired, ∀ later w', (automations R).Extends FreshIds h w later w' →
    ∀ claimId kind, strip claimId = p.2 →
      claimIsActive R.python w'.store.tasks p.1 claimId kind = false
  /-- A release takes the task back to the run before the claim, when the occurrence was due, and leaves the
  other tasks.  It is due again at every time that is in time for it. -/
  released : ∀ env tid claimId w',
    (automations R).step ⟨env, .releaseSkippedScheduledClaim tid claimId⟩ w =
      (.ok (.flag true), w') →
    ∃ t c, findTask w.store.tasks tid = some t ∧ t.scheduledClaim = some c ∧ c.claimId = claimId ∧
      w'.store.tasks = editTask tid (fun _ =>
        { t with
          scheduledClaim := none
          lastRun := c.previousLastRun
          lastScheduleStatus := some "skipped" }) w.store.tasks ∧
      t.lastRun = c.occurrenceAt ∧
      isDue R (c.taskSnapshot.schedule c.previousLastRun) c.occurrenceAt = .ok true ∧
      ∀ t', findTask w'.store.tasks tid = some t' → ∀ now, Timely R t c now →
        isDue R (t'.schedule t'.lastRun) now = .ok true
  /-- An operation that raises leaves the tasks and the document. -/
  raised : ∀ call e w', (automations R).step call w = (.error e, w') →
    w'.store.tasks = w.store.tasks ∧ w'.store.document = w.store.document
  /-- The memory and the document agree. -/
  same : w.store.document = w.store.tasks

/-- An operation that raises leaves the tasks and the document. -/
theorem perform_error {op : StoreOp} {s s' : AutomationStore} {e : StoreError}
    (h : op.perform R env s = (.error e, s')) :
    s'.tasks = s.tasks ∧ s'.document = s.document := by
  have hplan {α : Type} {f : α → StoreAnswer} {plan : List Task → Except StoreError (Plan α)}
      (hs : named f (carryOut env plan s) = (.error e, s')) :
      s'.tasks = s.tasks ∧ s'.document = s.document := by
    obtain ⟨r₁, hs, hr⟩ := named_eq hs
    rcases carryOut_cases hs with ⟨-, rfl⟩ | ⟨p, -, rfl, -⟩
    · exact ⟨rfl, rfl⟩
    · exact absurd hr (by simp [Except.map])
  cases op with
  | load =>
      obtain ⟨r₁, hs, hr⟩ := named_eq h
      unfold AutomationStore.load at hs
      split at hs
      · obtain ⟨-, rfl⟩ := Prod.mk.inj hs
        exact ⟨rfl, rfl⟩
      · obtain ⟨rfl, -⟩ := Prod.mk.inj hs
        exact absurd hr (by simp [Except.map])
  | save =>
      obtain ⟨r₁, hs, hr⟩ := named_eq h
      rcases writeTasks_cases hs with ⟨-, rfl⟩ | ⟨rfl, -⟩
      · exact ⟨rfl, rfl⟩
      · exact absurd hr (by simp [Except.map])
  | _ => exact hplan h

theorem perform_of_step {w w' : Watched} {op : StoreOp} {r : Except StoreError StoreAnswer}
    (h : (automations R).step ⟨env, op⟩ w = (r, w')) :
    op.perform R env w.store = (r, w'.store) := by
  obtain ⟨rfl, rfl⟩ := Prod.mk.inj h
  rfl

theorem named_ok {α : Type} {f : α → StoreAnswer} {p : Except StoreError α × AutomationStore}
    {s' : AutomationStore} {a : StoreAnswer} (h : named f p = (.ok a, s')) :
    ∃ b, p = (.ok b, s') ∧ f b = a := by
  obtain ⟨r₁, hp, hr⟩ := named_eq h
  cases r₁ with
  | error e => exact absurd hr (by simp [Except.map])
  | ok b => exact ⟨b, hp, (Except.ok.inj hr).symm⟩

/-- **Occurrences are consumed once**, in every run that uses new identities for new
claims. -/
theorem occurrences_consumed_once {h : StoreLog} {w : Watched}
    (hrun : (automations R).RunWhere FreshIds h w) : ConsumedOnce R h w := by
  have hinv := inv_of_run hrun
  refine ⟨fun env now claims w' hs => ?_, fun p hp later w' hext claimId kind hid => ?_,
    fun env tid claimId w' hs => ?_, fun call e w' hs => ?_, hinv.document⟩
  · obtain ⟨claims', hcarry, hanswer⟩ := named_ok (perform_of_step hs)
    obtain rfl := StoreAnswer.claims.inj hanswer
    rcases carryOut_cases hcarry with ⟨⟨e, he⟩, -⟩ | ⟨p, hp, hr, -⟩
    · exact absurd he (by simp)
    · obtain rfl := Except.ok.inj hr
      obtain ⟨all, hclaims, -⟩ := claimDueTasksPlan_eq_ok hp
      obtain ⟨-, hsub, hat, -⟩ := claimDue_spec hclaims
      exact ⟨hinv.tasks.ids.sublist hsub, fun c hc => (hat c hc).2⟩
  · have hinv' := inv_of_run (hrun.extend hext)
    refine claimIsActive_eq_false fun t hfind hmem => ?_
    obtain ⟨hmem', htid⟩ := findTask_some hfind
    refine (hinv'.tasks.each t hmem').alive _ hmem ?_
    rw [hid, htid]
    exact retired_of_extends hp hext
  · obtain ⟨flag, hcarry, hanswer⟩ := named_ok (perform_of_step hs)
    obtain rfl := StoreAnswer.flag.inj hanswer
    obtain ⟨t, t', hfind, hf, htasks⟩ := editPlan_true hcarry
    have hok := hinv.tasks.each t (findTask_some hfind).1
    obtain ⟨c, hc, hid, rfl, -⟩ := hok.onScheduledClaim hf fun _ _ hnone => ⟨rfl, rfl, hnone, rfl⟩
    obtain ⟨hlast, hdue⟩ := hok.occurrence c hc
    have hon : t.enabled = true := by
      by_contra hoff
      have hnone := hok.idle (Bool.not_eq_true _ ▸ hoff)
      simp [claimIds_eq_nil, hc] at hnone
    refine ⟨t, c, hfind, hc, hid, htasks, hlast, hdue, fun t' hfind' now htimely => ?_⟩
    rw [htasks] at hfind'
    obtain rfl := Option.some.inj (hfind'.symm.trans
      (findTask_editTask _ (fun _ _ => (findTask_some hfind).2) hfind))
    exact htimely.isDue hon hdue
  · exact perform_error (perform_of_step hs)

/-- A runtime for tasks without a schedule. -/
def hookRuntime : Runtime :=
  ⟨⟨fun _ => "", id, fun _ => none, id, fun _ => none, fun _ => .ok ""⟩,
    ⟨fun _ => none, fun _ => 0, none⟩⟩

/-- A call at time 0; the identity it draws for a new task is `1`. -/
def hookCall (op : StoreOp) : StoreCall :=
  ⟨⟨0, fun n => if n = 1 then "1" else "0", none, none⟩, op⟩

def addHook : StoreCall :=
  hookCall (.add { name := "Hook", prompt := "Run", trigger := [("type", .str "webhook")] })

/-- The delivery `c` of the hook. -/
def deliver : StoreCall := hookCall (.admitTrigger { tid := "1", source := "webhook", claimId := "c" })

def enable (b : Bool) : StoreCall := hookCall (.update "1" [("enabled", .bool b)])

def hookStep (call : StoreCall) (w : Watched) : Except StoreError StoreAnswer × Watched :=
  (automations hookRuntime).step call w

/-- The states after the hook was added, delivered to, disabled, enabled and delivered to
once more. -/
def hookAdded : Watched := (hookStep addHook (automations hookRuntime).start).2
def hookDelivered : Watched := (hookStep deliver hookAdded).2
def hookDisabled : Watched := (hookStep (enable false) hookDelivered).2
def hookEnabled : Watched := (hookStep (enable true) hookDisabled).2
def hookAgain : Watched := (hookStep deliver hookEnabled).2

def hookLog : StoreLog :=
  [(enable false, (hookStep (enable false) hookDelivered).1),
    (deliver, (hookStep deliver hookAdded).1),
    (addHook, (hookStep addHook (automations hookRuntime).start).1)]

theorem run_hookDisabled : (automations hookRuntime).RunWhere FreshIds hookLog hookDisabled := by
  have hnone : (findTask hookAdded.store.tasks "1").map (·.scheduledClaim.isSome) = some false ∧
      hookAdded.retired = [] := by
    decide +kernel
  refine .step (.step (.step .start ?_ Prod.mk.eta.symm) ⟨?_, fun t c hfind hc => ?_⟩
    Prod.mk.eta.symm) trivial Prod.mk.eta.symm
  · simp [FreshIds, addHook, hookCall, automations]
  · exact hnone.2 ▸ List.not_mem_nil
  · have hidle := hnone.1
    rw [show findTask hookAdded.store.tasks "1" = some t from hfind] at hidle
    simp [hc] at hidle

theorem consumed_once_hook : ConsumedOnce hookRuntime hookLog hookDisabled :=
  occurrences_consumed_once run_hookDisabled

/-- The hook was disabled and its delivery discarded; enabled again, it takes the same
delivery once more. -/
theorem discarded_claim_active_again :
    ∃ (h later : StoreLog) (w w' : Watched), (automations hookRuntime).Run h w ∧
      ("1", "c") ∈ w.retired ∧
      (automations hookRuntime).Extends (fun _ _ _ => True) h w later w' ∧
      claimIsActive hookRuntime.python w'.store.tasks "1" "c" "trigger" = true := by
  have hfacts : ("1", "c") ∈ hookDisabled.retired ∧
      claimIsActive hookRuntime.python hookAgain.store.tasks "1" "c" "trigger" = true := by
    decide +kernel
  exact ⟨hookLog, _, hookDisabled, hookAgain, run_hookDisabled.run, hfacts.1,
    .step (.step .refl trivial Prod.mk.eta.symm) trivial Prod.mk.eta.symm, hfacts.2⟩

end Automation
end VariantOne
