import Mathlib.Logic.Relation
import VariantOne.Core.Fingerprint
import VariantOne.WorkFabric.EventSourcing
import VariantOne.WorkFabric.Interactions

/-!
# Interactions are resolved once

Every body of the service does one of three things to the database
(`InteractionEffect`): it adds an open row with the first event of its aggregate, it
settles an open row with the next event, or it leaves the rows alone.  What every state
keeps (`InteractionsOk`) and what happens to a row (`Kept`) follow from that, and so does
what the history says about the rows there are (`Recorded`).

Repeating an answer compares the caller's value with what went through JSON, so that a
tuple is not found equal to itself; the runs of `interactions_resolved_once` answer with
values that are JSON already.
-/

namespace VariantOne
namespace WorkFabric

variable {H : Host} {env : Env}

/-! ## 1.  Requests and fingerprints -/

/-- Two requests are equal as JSON. -/
def SameRequest (p q : PyDict) : Prop :=
  ∃ es es', strictEntries p "$" = .ok es ∧ strictEntries q "$" = .ok es' ∧
    Json.canon (.obj es) = Json.canon (.obj es')

/-- Equal fingerprints are fingerprints of equal requests. -/
theorem interactionFingerprint_inj (hdigest : Function.Injective H.sha256) {p q : PyDict}
    {f g : String} (hf : interactionFingerprint H p = .ok f)
    (hg : interactionFingerprint H q = .ok g) : f = g ↔ SameRequest p q := by
  obtain ⟨es, hes, rfl⟩ := requestFingerprint_eq_ok.mp hf
  obtain ⟨es', hes', rfl⟩ := requestFingerprint_eq_ok.mp hg
  rw [requestFingerprint_inj hdigest]
  constructor
  · exact fun h => ⟨es, es', hes, hes', h.2⟩
  · rintro ⟨js, js', hjs, hjs', hcanon⟩
    obtain rfl := Except.ok.inj (hes.symm.trans hjs)
    obtain rfl := Except.ok.inj (hes'.symm.trans hjs')
    exact ⟨rfl, hcanon⟩

/-- Equal requests hold equal documents under a key. -/
theorem SameRequest.storedDict_eq {p q s s' : PyDict} {k : String} (h : SameRequest p q)
    (hs : Dict.get? p k = some (.dict s)) (hs' : Dict.get? q k = some (.dict s')) :
    storedDict s = storedDict s' := by
  obtain ⟨es, es', hes, hes', hcanon⟩ := h
  obtain ⟨j, hj, hget⟩ := get?_of_strictEntries hes hs
  obtain ⟨j', hj', hget'⟩ := get?_of_strictEntries hes' hs'
  rw [strictJsonValue, except_map_eq_ok] at hj hj'
  obtain ⟨js, hjs, rfl⟩ := hj
  obtain ⟨js', hjs', rfl⟩ := hj'
  rw [Json.canon, Json.canon, Json.obj.injEq] at hcanon
  have hlookup := congrArg (fun d => Dict.get? d k) hcanon
  simp only [Dict.get?_sort, get?_canonEntries, hget, hget', Option.map_some, Option.some.injEq]
    at hlookup
  rw [Json.canon, Json.canon, Json.obj.injEq] at hlookup
  unfold storedDict
  rw [strictEntries_path s "$" hjs, strictEntries_path s' "$" hjs']
  exact congrArg Except.ok hlookup

/-- A plain dictionary equals the document that is stored of it. -/
theorem eqDict_storedDict {s : PyDict} {doc : List (String × Json)} (hs : plainDict s = true)
    (h : storedDict s = .ok doc) : eqDict s doc = true := by
  obtain ⟨es, hes, rfl⟩ := except_map_eq_ok.mp h
  have hstrict : strictJsonValue (.dict s) "$" = .ok (.obj es) := by
    rw [strictJsonValue, hes]
    rfl
  have heq := eqJson_canon hs hstrict
  rwa [Json.canon, PyValue.eqJson] at heq

/-- A plain answer equals what is read back of its envelope. -/
theorem eqJson_envelope {response : PyValue} {doc : List (String × Json)}
    (hplain : response.plain = true) (h : storedDict [("value", response)] = .ok doc) :
    response.eqJson ((Dict.get? doc "value").getD .null) = true := by
  obtain ⟨es, hes, rfl⟩ := except_map_eq_ok.mp h
  obtain ⟨j, hj, hget⟩ := get?_of_strictEntries hes
    (show Dict.get? [("value", response)] "value" = some response from rfl)
  rw [Dict.get?_sort, get?_canonEntries, hget, Option.map_some, Option.getD_some]
  exact eqJson_canon hplain hj

/-! ## 2.  What a body does -/

/-- One event was appended, with the next version of its aggregate. -/
structure EventAdded (w w' : Tables) (kind aggregate : String) (version : Nat) : Prop where
  event : ∃ e : WorkEvent, w'.events.rows = w.events.rows ++ [e] ∧ e.aggregateKind.val = kind ∧
    e.aggregateId.val = aggregate ∧ e.aggregateVersion = version
  next : version = w.currentVersion kind aggregate + 1

/-- A body that inserts an event. -/
theorem insertEvent_cases {a : EventArgs} {w w' : Tables} {e : WorkEvent}
    (h : (insertEvent H env a).run w = .ok (e, w')) :
    w' = w ∧ strip a.idempotencyKey ≠ "" ∨
      ∃ version : Nat, EventAdded w w' (strip a.aggregateKind) (strip a.aggregateId) version ∧
        ∀ v ∈ a.aggregateVersion, v = (version : Int) := by
  obtain ⟨c, hc, ⟨hprior, rfl, -⟩ | ⟨-, happended, hof⟩⟩ := insertEvent_ok h
  · refine .inl ⟨rfl, fun hempty => ?_⟩
    have hidem := val_of_text (cleanEvent_eq_ok hc).2.2.2.1
    unfold priorEvent at hprior
    rw [if_pos (hidem.trans hempty)] at hprior
    exact absurd hprior (by simp)
  · obtain ⟨hkind, haggregate, -⟩ := cleanEvent_eq_ok hc
    rw [← val_of_text hkind, ← val_of_text haggregate]
    exact .inr ⟨_, ⟨⟨e, happended.events, by rw [hof.kind], by rw [hof.aggregate], rfl⟩, hof.version⟩,
      hof.requested⟩

theorem onWork_eq_ok {α : Type} {x : Work α} {t t' : InteractionDb} {a : α}
    (h : (onWork x).run t = .ok (a, t')) :
    ∃ work, x.run t.work = .ok (a, work) ∧ t' = { t with work := work } := by
  obtain ⟨work, hx, rfl⟩ := Txn.run_zoom_eq_ok.mp h
  exact ⟨work, hx, rfl⟩

theorem interactionId_of_find? {t : InteractionDb} {id : String} {row : InteractionRow}
    (h : t.interactions.find? id = some row) : row.interactionId = id := by
  have hkey := Table.key_of_find? (r := row) h
  exact hkey

/-- A row that came of a request. -/
structure CarriedBy (H : Host) (request : PyDict) (row : InteractionRow) : Prop where
  fingerprint : interactionFingerprint H request = .ok row.requestFingerprint
  schema : ∃ s, Dict.get? request "schema" = some (.dict s) ∧ storedDict s = .ok row.schema
  metadata : ∃ m, Dict.get? request "metadata" = some (.dict m) ∧ storedDict m = .ok row.metadata

/-- An open row and its first event were added. -/
structure Opened (H : Host) (request : PyDict) (row : InteractionRow) (t t' : InteractionDb) :
    Prop where
  fresh : t.interactions.find? row.interactionId = none
  lookup : ∀ id, t'.interactions.find? id =
    if row.interactionId = id then some row else t.interactions.find? id
  keys : ∀ r ∈ t.interactions.rows, ¬ sameKey row r
  opened : row.status = .opened ∧ row.version = 1
  carried : CarriedBy H request row
  event : EventAdded t.work t'.work "interaction" (strip row.interactionId) 1

/-- An open row was settled with the next event. -/
structure Settled (row row' : InteractionRow) (t t' : InteractionDb) : Prop where
  found : t.interactions.find? row.interactionId = some row
  opened : row.status = .opened
  target : row'.status ∈ InteractionStatus.terminal
  change : ∃ doc now, row' = settleChange row'.status doc (row.version + 1) now row
  lookup : ∀ id, t'.interactions.find? id =
    if row.interactionId = id then some row' else t.interactions.find? id
  event : EventAdded t.work t'.work "interaction" (strip row.interactionId) (row.version + 1)

/-- **What a body does** to the database. -/
inductive InteractionEffect (H : Host) (t t' : InteractionDb) : Prop
  | same (rows : t'.interactions = t.interactions)
      (log : t'.work.events = t.work.events ∨
        ∃ aggregate version, EventAdded t.work t'.work "goal" aggregate version)
  | opened {request : PyDict} {row : InteractionRow} (h : Opened H request row t t')
  | settled {row row' : InteractionRow} (h : Settled row row' t t')

theorem insertInteractionRow_eq_ok {row : InteractionRow} {t t' : InteractionDb} {u : Unit}
    (h : (insertInteractionRow row).run t = .ok (u, t')) :
    t.interactions.find? row.interactionId = none ∧ (∀ r ∈ t.interactions.rows, ¬ sameKey row r) ∧
      t'.work = t.work ∧ ∀ id, t'.interactions.find? id =
        if row.interactionId = id then some row else t.interactions.find? id := by
  unfold insertInteractionRow at h
  rw [Txn.run_read_bind] at h
  obtain ⟨hkeys, h⟩ := Txn.run_ensure_bind_eq_ok.mp h
  cases hi : t.interactions.insert? row with
  | none => simp [hi] at h
  | some rows =>
      obtain ⟨hnew, hrows⟩ := Table.insert?_eq_some hi
      obtain rfl : { t with interactions := rows } = t' := by simpa [hi] using h
      exact ⟨hnew, hkeys, rfl, fun id => Table.find?_of_rows_append hrows id⟩

theorem selectInteraction_eq_ok {interactionId : String} {t t' : InteractionDb}
    {record : InteractionRecord} (h : (selectInteraction interactionId).run t = .ok (record, t')) :
    t' = t ∧ ∃ row, t.interactions.find? interactionId = some row ∧ record = row.record := by
  unfold selectInteraction at h
  rw [Txn.run_read_bind] at h
  cases hrow : t.interactions.find? interactionId with
  | none => simp [hrow] at h
  | some row =>
      rw [hrow] at h
      obtain ⟨rfl, rfl⟩ := Txn.run_pure_eq_ok.mp h
      exact ⟨rfl, row, rfl, rfl⟩

theorem strip_interaction : strip "interaction" = "interaction" :=
  strip_of_forall (by simp [isSpace])

/-- The insertion of an open row. -/
theorem insertInteraction_eq_ok {request : PyDict} {row : InteractionRow} {t t' : InteractionDb}
    {interactionId : String} {record : InteractionRecord} {scope : WorkScope} {actor : WorkActor} {correlationId : String}
    {payload : PyDict} {createdAt : Option ℚ}
    (h : (insertInteraction H env row (requestedEvent interactionId scope actor correlationId
      payload createdAt)).run t = .ok (record, t'))
    (hid : row.interactionId = interactionId) (hrow : row.status = .opened ∧ row.version = 1)
    (hcarried : CarriedBy H request row) : Opened H request row t t' ∧ record = row.record := by
  subst hid
  unfold insertInteraction at h
  obtain ⟨_, t₁, hinsert, h⟩ := Txn.run_bind_eq_ok.mp h
  obtain ⟨hfresh, hkeys, hwork, hlookup⟩ := insertInteractionRow_eq_ok hinsert
  obtain ⟨_, t₂, hevent, h⟩ := Txn.run_bind_eq_ok.mp h
  obtain ⟨work, hlog, rfl⟩ := onWork_eq_ok hevent
  obtain ⟨rfl, row', hselect, rfl⟩ := selectInteraction_eq_ok h
  have hfound : t₁.interactions.find? row.interactionId = some row := by
    rw [hlookup, if_pos rfl]
  obtain rfl := Option.some.inj (hfound.symm.trans hselect)
  rcases insertEvent_cases hlog with ⟨-, hkey⟩ | ⟨version, hadded, hversion⟩
  · exact absurd (show strip "" = "" by decide) hkey
  · obtain rfl : 1 = version := by exact_mod_cast hversion 1 rfl
    rw [hwork] at hadded
    refine ⟨⟨hfresh, hlookup, hkeys, hrow, hcarried, ?_⟩, rfl⟩
    simpa only [requestedEvent, strip_interaction] using hadded

/-- The settlement of an open row. -/
theorem settleInteraction_eq_ok {row : InteractionRow} {status : InteractionStatus}
    {response : PyValue} {now : ℚ} {actor : WorkActor} {correlationId : String} {payload : PyDict}
    {createdAt : Option ℚ} {t t' : InteractionDb} {record : InteractionRecord}
    (hfound : t.interactions.find? row.interactionId = some row) (hopened : row.status = .opened)
    (hstatus : status ∈ InteractionStatus.terminal)
    (h : (settleInteraction H env row status response now actor correlationId payload
      createdAt).run t = .ok (record, t')) :
    ∃ doc, storedDict [("value", response)] = .ok doc ∧
      Settled row (settleChange status doc (row.version + 1) now row) t t' ∧
      record = (settleChange status doc (row.version + 1) now row).record := by
  unfold settleInteraction at h
  obtain ⟨doc, hdoc, h⟩ := Txn.run_lift_bind_eq_ok.mp h
  obtain ⟨_, t₁, hupdate, h⟩ := Txn.run_bind_eq_ok.mp h
  obtain ⟨_, t₂, hevent, h⟩ := Txn.run_bind_eq_ok.mp h
  obtain ⟨work, hlog, rfl⟩ := onWork_eq_ok hevent
  obtain ⟨rfl, row', hselect, rfl⟩ := selectInteraction_eq_ok h
  obtain ⟨-, rfl⟩ := Prod.mk.inj (Except.ok.inj hupdate)
  have hlookup (id : String) :
      (t.interactions.updateWhere
        (fun r => r.interactionId == row.interactionId && r.version == row.version)
        (settleChange status doc (row.version + 1) now)
        (interactionId_settleChange status doc (row.version + 1) now)).find? id =
      if row.interactionId = id then some (settleChange status doc (row.version + 1) now row)
        else t.interactions.find? id := by
    rw [Table.find?_updateWhere]
    split
    · rename_i hid
      rw [← hid, hfound]
      simp
    · rename_i hid
      cases hr : t.interactions.find? id with
      | none => rfl
      | some r =>
          have hkey : r.interactionId = id := interactionId_of_find? hr
          have hne : r.interactionId ≠ row.interactionId := fun heq => hid (heq.symm.trans hkey)
          simp [hne]
  refine ⟨doc, hdoc, ?_, ?_⟩
  · rcases insertEvent_cases hlog with ⟨-, hkey⟩ | ⟨version, hadded, hversion⟩
    · exact absurd (show strip "" = "" by decide) hkey
    · obtain rfl : row.version + 1 = version := by exact_mod_cast hversion _ rfl
      refine ⟨hfound, hopened, hstatus, ⟨doc, now, rfl⟩, hlookup, ?_⟩
      simpa only [strip_interaction] using hadded
  · have hselect := (hlookup row.interactionId).symm.trans hselect
    rw [if_pos rfl] at hselect
    rw [Option.some.inj hselect]

theorem interactionId_open (interactionId kind ownerKind owner prompt : String)
    (schema metadata : List (String × Json)) (scope : WorkScope) (fingerprint key : String)
    (expiresAt : Option ℚ) (now : ℚ) :
    (openInteraction interactionId kind ownerKind owner prompt schema metadata scope fingerprint key
      expiresAt now).interactionId = interactionId := rfl

/-- A new row carries the request it is opened for. -/
theorem carriedBy_open {interactionId kind prompt ownerKind owner fingerprint key : String}
    {s m : PyDict} {schema metadata : List (String × Json)} {scope : WorkScope} {expiresAt now : ℚ}
    {expires : Option ℚ}
    (hprint : interactionFingerprint H
      (interactionRequest H kind prompt s m scope ownerKind owner expiresAt) = .ok fingerprint)
    (hs : storedDict s = .ok schema) (hm : storedDict m = .ok metadata) :
    CarriedBy H (interactionRequest H kind prompt s m scope ownerKind owner expiresAt)
      (openInteraction interactionId kind ownerKind owner prompt schema metadata scope fingerprint
        key expires now) :=
  ⟨hprint, ⟨s, rfl, hs⟩, ⟨m, rfl, hm⟩⟩

/-- `create`: it answers from a row with the fingerprint of the request, or opens one. -/
theorem createInteraction_eq_ok {a : InteractionArgs} {t t' : InteractionDb}
    {record : InteractionRecord} (h : (createInteraction H env a).run t = .ok (record, t')) :
    ∃ c fingerprint, a.clean = .ok c ∧ interactionFingerprint H (a.request H c) = .ok fingerprint ∧
      ((t' = t ∧ ∃ row, t.interactions.find? row.interactionId = some row ∧ record = row.record ∧
          row.requestFingerprint = fingerprint) ∨
        ∃ row, Opened H (a.request H c) row t t' ∧ record = row.record) := by
  unfold createInteraction at h
  obtain ⟨c, hc, h⟩ := Txn.run_lift_bind_eq_ok.mp h
  obtain ⟨fingerprint, hprint, h⟩ := Txn.run_lift_bind_eq_ok.mp h
  rw [Txn.run_read_bind] at h
  refine ⟨c, fingerprint, hc, hprint, ?_⟩
  dsimp only at h
  cases hrow : t.interactions.find? (a.identity H env c t) with
  | some row =>
      rw [hrow] at h
      obtain ⟨hsame, h⟩ := Txn.run_ensure_bind_eq_ok.mp h
      obtain ⟨rfl, rfl⟩ := Txn.run_pure_eq_ok.mp h
      exact .inl ⟨rfl, row, by rw [interactionId_of_find? hrow, hrow], rfl, hsame⟩
  | none =>
      rw [hrow] at h
      dsimp only at h
      cases hkeyed : keyedInteraction t c with
      | some row =>
          rw [hkeyed] at h
          obtain ⟨hsame, h⟩ := Txn.run_ensure_bind_eq_ok.mp h
          obtain ⟨rfl, rfl⟩ := Txn.run_pure_eq_ok.mp h
          have hmem : row ∈ t.interactions.rows := by
            unfold keyedInteraction at hkeyed
            split at hkeyed
            · exact absurd hkeyed (by simp)
            · exact List.mem_of_find?_eq_some hkeyed
          exact .inl ⟨rfl, row, Table.find?_key_of_mem hmem, rfl, hsame⟩
      | none =>
          rw [hkeyed] at h
          obtain ⟨schema, hschema, h⟩ := Txn.run_lift_bind_eq_ok.mp h
          obtain ⟨metadata, hmetadata, h⟩ := Txn.run_lift_bind_eq_ok.mp h
          obtain ⟨hopened, hrecord⟩ := insertInteraction_eq_ok h (interactionId_open ..) ⟨rfl, rfl⟩
            (carriedBy_open hprint hschema hmetadata)
          exact .inr ⟨_, hopened, hrecord⟩

/-- `create_goal_input_tx` opens a row. -/
theorem createGoalInput_eq_ok {g : GoalInputArgs} {t t' : InteractionDb}
    {record : InteractionRecord} (h : (createGoalInput H env g).run t = .ok (record, t')) :
    ∃ row, row.interactionId = g.interactionId ∧ Opened H (g.request H) row t t' := by
  unfold createGoalInput at h
  obtain ⟨schema, hschema, h⟩ := Txn.run_lift_bind_eq_ok.mp h
  obtain ⟨metadata, hmetadata, h⟩ := Txn.run_lift_bind_eq_ok.mp h
  obtain ⟨fingerprint, hprint, h⟩ := Txn.run_lift_bind_eq_ok.mp h
  obtain ⟨hopened, -⟩ :=
    insertInteraction_eq_ok h (interactionId_open ..) ⟨rfl, rfl⟩
      (carriedBy_open hprint hschema hmetadata)
  exact ⟨_, interactionId_open .., hopened⟩

theorem openGoalInput_eq_ok {interactionId : String} {version : Int} {t t' : InteractionDb}
    {row : InteractionRow} (h : (openGoalInput interactionId version).run t = .ok (row, t')) :
    t' = t ∧ row.interactionId = interactionId ∧
      t.interactions.find? row.interactionId = some row ∧ row.status = .opened := by
  unfold openGoalInput at h
  rw [Txn.run_read_bind] at h
  cases hrow : t.interactions.find? interactionId with
  | none => simp [hrow] at h
  | some row' =>
      rw [hrow] at h
      obtain ⟨hopen, h⟩ := Txn.run_ensure_bind_eq_ok.mp h
      obtain ⟨rfl, rfl⟩ := Txn.run_pure_eq_ok.mp h
      have hid := interactionId_of_find? hrow
      exact ⟨rfl, hid, by rw [hid, hrow], hopen.1⟩

/-- `resolve_goal_input_tx` settles an open row. -/
theorem resolveGoalInput_eq_ok {interactionId : String} {response : PyValue} {version : Int}
    {actor : WorkActor} {correlationId : String} {now : Option ℚ} {t t' : InteractionDb}
    {record : InteractionRecord}
    (h : (resolveGoalInput H env interactionId response version actor correlationId now).run t =
      .ok (record, t')) :
    ∃ row row', row.interactionId = interactionId ∧ Settled row row' t t' ∧
      row'.status = .answered ∧ storedDict [("value", response)] = .ok row'.responseDoc := by
  unfold resolveGoalInput at h
  obtain ⟨row, t₁, hopen, hsettle⟩ := Txn.run_bind_eq_ok.mp h
  obtain ⟨rfl, hid, hfound, hstatus⟩ := openGoalInput_eq_ok hopen
  obtain ⟨doc, hdoc, hsettled, -⟩ :=
    settleInteraction_eq_ok hfound hstatus (show InteractionStatus.answered ∈ _ by decide) hsettle
  exact ⟨row, _, hid, hsettled, rfl, hdoc⟩

/-- `dismiss_goal_input_tx` settles an open row. -/
theorem dismissGoalInput_eq_ok {interactionId : String} {version : Int} {actor : WorkActor}
    {correlationId : String} {now : Option ℚ} {t t' : InteractionDb} {record : InteractionRecord}
    (h : (dismissGoalInput H env interactionId version actor correlationId now).run t =
      .ok (record, t')) :
    ∃ row row', Settled row row' t t' := by
  unfold dismissGoalInput at h
  obtain ⟨row, t₁, hopen, hsettle⟩ := Txn.run_bind_eq_ok.mp h
  obtain ⟨rfl, -, hfound, hstatus⟩ := openGoalInput_eq_ok hopen
  obtain ⟨doc, -, hsettled, -⟩ :=
    settleInteraction_eq_ok hfound hstatus (show InteractionStatus.dismissed ∈ _ by decide) hsettle
  exact ⟨row, _, hsettled⟩

theorem target_terminal {c : ResolveArgs} {status : InteractionStatus} (h : c.target = .ok status) :
    status ∈ InteractionStatus.terminal := by
  unfold ResolveArgs.target at h
  dsimp only at h
  split at h
  · exact absurd h (by simp)
  · rename_i hfind
    obtain rfl := Except.ok.inj h
    exact List.mem_of_find?_eq_some hfind

theorem opened_of_not_terminal {status : InteractionStatus}
    (h : status ∉ InteractionStatus.terminal) : status = .opened := by
  cases status <;> first | rfl | exact absurd (by decide) h

/-- `resolve`: it answers from a settled row, or settles an open one. -/
theorem resolveInteraction_eq_ok {c : ResolveArgs} {t t' : InteractionDb}
    {record : InteractionRecord} (h : (resolveInteraction H env c).run t = .ok (record, t')) :
    ∃ status row, c.target = .ok status ∧ t.interactions.find? c.interactionId = some row ∧
      ((t' = t ∧ row.status = status ∧ c.response.eqJson row.record.response = true ∧
          record = row.record) ∨
        ∃ row', Settled row row' t t' ∧ row'.status = status ∧ record = row'.record ∧
          storedDict [("value", c.response)] = .ok row'.responseDoc) := by
  unfold resolveInteraction at h
  obtain ⟨status, htarget, h⟩ := Txn.run_lift_bind_eq_ok.mp h
  rw [Txn.run_read_bind] at h
  cases hrow : t.interactions.find? c.interactionId with
  | none => simp [hrow] at h
  | some row =>
      rw [hrow] at h
      dsimp only at h
      refine ⟨status, row, htarget, rfl, ?_⟩
      split at h
      · obtain ⟨⟨hstatus, hsame⟩, h⟩ := Txn.run_ensure_bind_eq_ok.mp h
        obtain ⟨rfl, rfl⟩ := Txn.run_pure_eq_ok.mp h
        exact .inl ⟨rfl, hstatus, hsame, rfl⟩
      · rename_i hopen
        obtain ⟨-, h⟩ := Txn.run_ensure_bind_eq_ok.mp h
        have hid := interactionId_of_find? hrow
        obtain ⟨doc, hdoc, hsettled, hrecord⟩ := settleInteraction_eq_ok (hid ▸ hrow)
          (opened_of_not_terminal hopen) (target_terminal htarget) h
        exact .inr ⟨_, hsettled, rfl, hrecord, hdoc⟩

theorem getInteraction_eq_ok {interactionId : String} {scope : Option WorkScope}
    {t t' : InteractionDb} {record : InteractionRecord}
    (h : (getInteraction interactionId scope).run t = .ok (record, t')) : t' = t := by
  unfold getInteraction at h
  rw [Txn.run_read_bind] at h
  cases hrow : t.interactions.find? interactionId with
  | none => simp [hrow] at h
  | some row =>
      rw [hrow] at h
      obtain ⟨-, h⟩ := Txn.run_ensure_bind_eq_ok.mp h
      exact (Txn.run_pure_eq_ok.mp h).2.symm

/-- One body of a Goal transaction. -/
theorem effect_of_goalStep {step : GoalTxStep} {t t' : InteractionDb} {u : Unit}
    (h : (step.run H env).run t = .ok (u, t')) : InteractionEffect H t t' := by
  cases step with
  | createInput g =>
      obtain ⟨_, hrun, -⟩ := Txn.run_map_eq_ok.mp h
      obtain ⟨row, -, hopened⟩ := createGoalInput_eq_ok hrun
      exact .opened hopened
  | resolveInput interactionId response version actor correlationId now =>
      obtain ⟨_, hrun, -⟩ := Txn.run_map_eq_ok.mp h
      obtain ⟨row, row', -, hsettled, -⟩ := resolveGoalInput_eq_ok hrun
      exact .settled hsettled
  | dismissInput interactionId version actor correlationId now =>
      obtain ⟨_, hrun, -⟩ := Txn.run_map_eq_ok.mp h
      obtain ⟨row, row', hsettled⟩ := dismissGoalInput_eq_ok hrun
      exact .settled hsettled
  | goalEvent a =>
      obtain ⟨_, hrun, -⟩ := Txn.run_map_eq_ok.mp h
      obtain ⟨work, hlog, rfl⟩ := onWork_eq_ok hrun
      rcases insertEvent_cases hlog with ⟨rfl, -⟩ | ⟨version, hadded, -⟩
      · exact .same rfl (.inl rfl)
      · have hgoal : strip "goal" = "goal" := strip_of_forall (by simp [isSpace])
        exact .same rfl (.inr ⟨_, version, by simpa only [hgoal] using hadded⟩)

/-- What a sequence of bodies does. -/
abbrev InteractionEffects (H : Host) : InteractionDb → InteractionDb → Prop :=
  Relation.ReflTransGen (InteractionEffect H)

theorem effects_of_goalSteps {steps : List GoalTxStep} {t t' : InteractionDb} {u : Unit}
    (h : (runGoalSteps H env steps).run t = .ok (u, t')) : InteractionEffects H t t' := by
  induction steps generalizing t with
  | nil =>
      obtain ⟨-, rfl⟩ := Txn.run_pure_eq_ok.mp h
      exact .refl
  | cons step steps ih =>
      obtain ⟨_, t₁, hstep, hrest⟩ := Txn.run_bind_eq_ok.mp h
      exact .head (effect_of_goalStep hstep) (ih hrest)

/-- **What an operation does**, whether it returns or raises. -/
theorem effects_of_step {call : InteractionCall} {r : Except Raised InteractionOutcome}
    {t t' : InteractionDb} (h : (interactions H).step call t = (r, t')) :
    InteractionEffects H t t' := by
  obtain ⟨env, op⟩ := call
  cases r with
  | error e =>
      obtain rfl := Txn.unitOfWork_error h
      exact .refl
  | ok outcome =>
      have hrun := (Txn.unitOfWork_ok.mp h).1
      cases op with
      | create a =>
          obtain ⟨record, hrun, -⟩ := Txn.run_map_eq_ok.mp hrun
          obtain ⟨c, fingerprint, -, -, ⟨rfl, -⟩ | ⟨row, hopened, -⟩⟩ := createInteraction_eq_ok hrun
          · exact .refl
          · exact .single (.opened hopened)
      | resolve c =>
          obtain ⟨record, hrun, -⟩ := Txn.run_map_eq_ok.mp hrun
          obtain ⟨status, row, -, -, ⟨rfl, -⟩ | ⟨row', hsettled, -⟩⟩ := resolveInteraction_eq_ok hrun
          · exact .refl
          · exact .single (.settled hsettled)
      | waitExpired interactionId version =>
          obtain ⟨record, hrun, -⟩ := Txn.run_map_eq_ok.mp hrun
          obtain ⟨status, row, -, -, ⟨rfl, -⟩ | ⟨row', hsettled, -⟩⟩ := resolveInteraction_eq_ok hrun
          · exact .refl
          · exact .single (.settled hsettled)
      | get interactionId scope =>
          obtain ⟨record, hrun, -⟩ := Txn.run_map_eq_ok.mp hrun
          obtain rfl := getInteraction_eq_ok hrun
          exact .refl
      | goal steps =>
          obtain ⟨u, hrun, -⟩ := Txn.run_map_eq_ok.mp hrun
          exact effects_of_goalSteps hrun

/-! ## 3.  What happens to a row -/

/-- A row of an earlier state, and what it is now: its request stays, and a settled row
stays as it is. -/
structure Kept (row row' : InteractionRow) : Prop where
  fingerprint : row'.requestFingerprint = row.requestFingerprint
  settled : row.status ∈ InteractionStatus.terminal → row' = row

theorem Kept.refl (row : InteractionRow) : Kept row row := ⟨rfl, fun _ => rfl⟩

theorem Kept.trans {row row' row'' : InteractionRow} (h : Kept row row') (h' : Kept row' row'') :
    Kept row row'' where
  fingerprint := h'.fingerprint.trans h.fingerprint
  settled hrow := by
    obtain rfl := h.settled hrow
    exact h'.settled hrow

theorem not_opened_of_terminal {status : InteractionStatus}
    (h : status ∈ InteractionStatus.terminal) : status ≠ .opened := by
  rintro rfl
  exact absurd h (by decide)

theorem Settled.kept {row row' : InteractionRow} {t t' : InteractionDb} (h : Settled row row' t t') :
    Kept row row' := by
  obtain ⟨doc, now, hchange⟩ := h.change
  refine ⟨by rw [hchange]; rfl, fun hterminal => absurd h.opened (not_opened_of_terminal hterminal)⟩

theorem InteractionEffect.kept {t t' : InteractionDb} (h : InteractionEffect H t t') {id : String}
    {row : InteractionRow} (hrow : t.interactions.find? id = some row) :
    ∃ row', t'.interactions.find? id = some row' ∧ Kept row row' := by
  cases h with
  | same rows _ => exact ⟨row, by rw [rows, hrow], .refl row⟩
  | @opened request new h =>
      refine ⟨row, ?_, .refl row⟩
      rw [h.lookup, if_neg, hrow]
      rintro rfl
      exact absurd (h.fresh.symm.trans hrow) (by simp)
  | @settled old new h =>
      rw [h.lookup]
      split
      · rename_i hid
        subst hid
        obtain rfl := Option.some.inj (h.found.symm.trans hrow)
        exact ⟨new, rfl, h.kept⟩
      · exact ⟨row, hrow, .refl row⟩

theorem kept_of_effects {t t' : InteractionDb} (h : InteractionEffects H t t') {id : String}
    {row : InteractionRow} (hrow : t.interactions.find? id = some row) :
    ∃ row', t'.interactions.find? id = some row' ∧ Kept row row' := by
  induction h with
  | refl => exact ⟨row, hrow, .refl row⟩
  | tail _ hstep ih =>
      obtain ⟨row', hrow', hkept⟩ := ih
      obtain ⟨row'', hrow'', hkept'⟩ := hstep.kept hrow'
      exact ⟨row'', hrow'', hkept.trans hkept'⟩

/-! ## 4.  What every state keeps -/

/-- The rows and the events of their aggregates. -/
structure InteractionsOk (H : Host) (t : InteractionDb) : Prop where
  versions : ∀ id row, t.interactions.find? id = some row →
    (t.work.aggregateEvents "interaction" (strip id)).map (·.aggregateVersion) =
      List.range' 1 row.version
  started : ∀ id row, t.interactions.find? id = some row → 0 < row.version
  positive : ∀ e ∈ t.work.events.rows, 0 < e.aggregateVersion
  aggregates : ∀ id row id' row', t.interactions.find? id = some row →
    t.interactions.find? id' = some row' → strip id = strip id' → id = id'
  keys : ∀ id row id' row', t.interactions.find? id = some row →
    t.interactions.find? id' = some row' → sameKey row row' → id = id'
  carried : ∀ id row, t.interactions.find? id = some row → ∃ request, CarriedBy H request row

/-- The versions of an aggregate after one more event. -/
theorem EventAdded.versions {w w' : Tables} {kind aggregate : String} {version : Nat}
    (h : EventAdded w w' kind aggregate version) (k a : String) :
    (w'.aggregateEvents k a).map (·.aggregateVersion) =
      (w.aggregateEvents k a).map (·.aggregateVersion) ++
        if kind = k ∧ aggregate = a then [version] else [] := by
  obtain ⟨e, hevents, rfl, rfl, rfl⟩ := h.event
  rw [aggregateEvents_append hevents, List.map_append]
  congr 1
  split <;> rfl

theorem EventAdded.positive {w w' : Tables} {kind aggregate : String} {version : Nat}
    (h : EventAdded w w' kind aggregate version)
    (hpositive : ∀ e ∈ w.events.rows, 0 < e.aggregateVersion) :
    ∀ e ∈ w'.events.rows, 0 < e.aggregateVersion := by
  obtain ⟨e, hevents, -, -, hversion⟩ := h.event
  have hnext := h.next
  intro e' he'
  rw [hevents, List.mem_append, List.mem_singleton] at he'
  rcases he' with he' | rfl
  · exact hpositive e' he'
  · omega

/-- An aggregate whose current version is zero has no event. -/
theorem aggregateEvents_eq_nil {w : Tables} {kind aggregate : String}
    (hpositive : ∀ e ∈ w.events.rows, 0 < e.aggregateVersion)
    (hzero : w.currentVersion kind aggregate = 0) : w.aggregateEvents kind aggregate = [] := by
  unfold Tables.currentVersion at hzero
  cases hevents : w.aggregateEvents kind aggregate with
  | nil => rfl
  | cons e es =>
      have he : e ∈ w.aggregateEvents kind aggregate := by rw [hevents]; exact List.mem_cons_self
      have hpos := hpositive e (List.mem_filter.mp he).1
      rw [hevents, List.map_cons, List.foldr_cons] at hzero
      omega

/-- The rows and events after an open row was added. -/
theorem InteractionsOk.opened {request : PyDict} {row : InteractionRow} {t t' : InteractionDb}
    (hok : InteractionsOk H t) (h : Opened H request row t t') : InteractionsOk H t' := by
  have hnone : t.work.aggregateEvents "interaction" (strip row.interactionId) = [] :=
    aggregateEvents_eq_nil hok.positive (by have := h.event.next; omega)
  -- No row there is has the aggregate of the new one.
  have hother : ∀ id r, t.interactions.find? id = some r → strip row.interactionId ≠ strip id :=
    fun id r hr heq => by
      have hversions := hok.versions id r hr
      have hstarted := hok.started id r hr
      rw [← heq, hnone, List.map_nil] at hversions
      obtain ⟨n, hn⟩ : ∃ n, r.version = n + 1 := ⟨r.version - 1, by omega⟩
      rw [hn, List.range'_succ] at hversions
      exact absurd hversions.symm (by simp)
  have hcases {id : String} {r : InteractionRow} (hr : t'.interactions.find? id = some r) :
      row.interactionId = id ∧ r = row ∨ t.interactions.find? id = some r := by
    rw [h.lookup] at hr
    split at hr
    · exact .inl ⟨‹_›, (Option.some.inj hr).symm⟩
    · exact .inr hr
  refine ⟨fun id r hr => ?_, fun id r hr => ?_, h.event.positive hok.positive,
    fun id r id' r' hr hr' heq => ?_, fun id r id' r' hr hr' hkey => ?_, fun id r hr => ?_⟩
  · rw [h.event.versions]
    rcases hcases hr with ⟨rfl, rfl⟩ | hr
    · rw [hnone, if_pos ⟨rfl, rfl⟩, h.opened.2]
      rfl
    · rw [if_neg fun hsame => hother id r hr hsame.2, List.append_nil]
      exact hok.versions id r hr
  · rcases hcases hr with ⟨-, rfl⟩ | hr
    · rw [h.opened.2]
      exact Nat.one_pos
    · exact hok.started id r hr
  · rcases hcases hr with ⟨rfl, -⟩ | hr <;> rcases hcases hr' with ⟨rfl, -⟩ | hr'
    · rfl
    · exact absurd heq (hother id' r' hr')
    · exact absurd heq.symm (hother id r hr)
    · exact hok.aggregates id r id' r' hr hr' heq
  · have hmem {id : String} {r : InteractionRow} (hr : t.interactions.find? id = some r) :
        ¬ sameKey row r := h.keys r (Table.mem_of_find? hr)
    rcases hcases hr with ⟨rfl, rfl⟩ | hr <;> rcases hcases hr' with ⟨rfl, rfl⟩ | hr'
    · rfl
    · exact absurd hkey (hmem hr')
    · obtain ⟨hne, hkind, hid, hk, hsame⟩ := hkey
      exact absurd ⟨hsame ▸ hne, hkind.symm, hid.symm, hk.symm, hsame.symm⟩ (hmem hr)
    · exact hok.keys id r id' r' hr hr' hkey
  · rcases hcases hr with ⟨-, rfl⟩ | hr
    · exact ⟨request, h.carried⟩
    · exact hok.carried id r hr

/-- The rows and events after an open row was settled. -/
theorem InteractionsOk.settled {row row' : InteractionRow} {t t' : InteractionDb}
    (hok : InteractionsOk H t) (h : Settled row row' t t') : InteractionsOk H t' := by
  obtain ⟨doc, now, hchange⟩ := h.change
  have hversion : row'.version = row.version + 1 := by rw [hchange]; rfl
  -- A row there is comes of one that was there, with the same request and key.
  have hcases {id : String} {r : InteractionRow} (hr : t'.interactions.find? id = some r) :
      ∃ old, t.interactions.find? id = some old ∧
        (row.interactionId = id ∧ old = row ∧ r = row' ∨ row.interactionId ≠ id ∧ r = old) := by
    rw [h.lookup] at hr
    split at hr
    · rename_i hid
      exact ⟨row, hid ▸ h.found, .inl ⟨hid, rfl, (Option.some.inj hr).symm⟩⟩
    · exact ⟨r, hr, .inr ⟨‹_›, rfl⟩⟩
  have hsameKey {old old' r r' : InteractionRow}
      (hr : old = row ∧ r = row' ∨ r = old) (hr' : old' = row ∧ r' = row' ∨ r' = old')
      (hkey : sameKey r r') : sameKey old old' := by
    rcases hr with ⟨rfl, rfl⟩ | rfl <;> rcases hr' with ⟨rfl, rfl⟩ | rfl
    · exact ⟨by rw [hchange] at hkey; exact hkey.1, rfl, rfl, rfl, rfl⟩
    · rw [hchange] at hkey
      exact hkey
    · rw [hchange] at hkey
      exact hkey
    · exact hkey
  refine ⟨fun id r hr => ?_, fun id r hr => ?_, h.event.positive hok.positive,
    fun id r id' r' hr hr' heq => ?_, fun id r id' r' hr hr' hkey => ?_, fun id r hr => ?_⟩
  · obtain ⟨old, hold, ⟨rfl, rfl, rfl⟩ | ⟨hid, rfl⟩⟩ := hcases hr
    · rw [h.event.versions, if_pos ⟨rfl, rfl⟩, hok.versions _ _ hold, hversion, List.range'_concat]
      simp [Nat.add_comm]
    · have hne : strip row.interactionId ≠ strip id := fun heq =>
        hid (hok.aggregates _ _ _ _ h.found hold heq)
      rw [h.event.versions, if_neg fun hsame => hne hsame.2, List.append_nil]
      exact hok.versions id r hold
  · obtain ⟨old, hold, ⟨rfl, rfl, rfl⟩ | ⟨-, rfl⟩⟩ := hcases hr
    · omega
    · exact hok.started id r hold
  · obtain ⟨old, hold, -⟩ := hcases hr
    obtain ⟨old', hold', -⟩ := hcases hr'
    exact hok.aggregates id old id' old' hold hold' heq
  · obtain ⟨old, hold, hr⟩ := hcases hr
    obtain ⟨old', hold', hr'⟩ := hcases hr'
    exact hok.keys id old id' old' hold hold'
      (hsameKey (hr.imp And.right And.right) (hr'.imp And.right And.right) hkey)
  · obtain ⟨old, hold, ⟨-, rfl, rfl⟩ | ⟨-, rfl⟩⟩ := hcases hr
    · obtain ⟨request, hcarried⟩ := hok.carried id old hold
      refine ⟨request, ?_⟩
      rw [hchange]
      exact ⟨hcarried.fingerprint, hcarried.schema, hcarried.metadata⟩
    · exact hok.carried id r hold

theorem InteractionsOk.effect {t t' : InteractionDb} (hok : InteractionsOk H t)
    (h : InteractionEffect H t t') : InteractionsOk H t' := by
  cases h with
  | same rows log =>
      have hversions (aggregate : String) :
          (t'.work.aggregateEvents "interaction" aggregate).map (·.aggregateVersion) =
            (t.work.aggregateEvents "interaction" aggregate).map (·.aggregateVersion) := by
        rcases log with log | ⟨_, _, hadded⟩
        · rw [aggregateEvents_of_events log]
        · rw [hadded.versions, if_neg (by simp), List.append_nil]
      have hpositive : ∀ e ∈ t'.work.events.rows, 0 < e.aggregateVersion := by
        rcases log with log | ⟨_, _, hadded⟩
        · rw [log]
          exact hok.positive
        · exact hadded.positive hok.positive
      refine ⟨fun id row hrow => ?_, fun id row hrow => ?_, hpositive,
        fun id row id' row' hrow hrow' => ?_, fun id row id' row' hrow hrow' => ?_,
        fun id row hrow => ?_⟩
      · rw [hversions]
        exact hok.versions id row (rows ▸ hrow)
      · exact hok.started id row (rows ▸ hrow)
      · exact hok.aggregates id row id' row' (rows ▸ hrow) (rows ▸ hrow')
      · exact hok.keys id row id' row' (rows ▸ hrow) (rows ▸ hrow')
      · exact hok.carried id row (rows ▸ hrow)
  | opened h => exact hok.opened h
  | settled h => exact hok.settled h

theorem ok_of_effects {t t' : InteractionDb} (hok : InteractionsOk H t)
    (h : InteractionEffects H t t') : InteractionsOk H t' := by
  induction h with
  | refl => exact hok
  | tail _ hstep ih => exact ih.effect hstep

theorem ok_start : InteractionsOk H (interactions H).start := by
  refine ⟨?_, ?_, ?_, ?_, ?_, ?_⟩ <;> simp [interactions, Tables.initial]

/-! ## 5.  What the history says -/

/-- What was asked of the service and what came of it, newest first. -/
abbrev InteractionLog := List (InteractionCall × Except Raised InteractionOutcome)

/-- The request was made for the interaction and was accepted. -/
inductive Requested (H : Host) (h : InteractionLog) : String → PyDict → Prop
  | create {env : Env} {a : InteractionArgs} {c : CleanInteraction} {record : InteractionRecord} :
      (⟨env, .create a⟩, .ok (.record record)) ∈ h → a.clean = .ok c →
        Requested H h record.interactionId (a.request H c)
  | goal {env : Env} {steps : List GoalTxStep} {g : GoalInputArgs} :
      (⟨env, .goal steps⟩, .ok .unit) ∈ h → .createInput g ∈ steps →
        Requested H h g.interactionId (g.request H)

/-- The answer was given for the interaction and was accepted. -/
inductive Answered (h : InteractionLog) : String → InteractionStatus → PyValue → Prop
  | resolve {env : Env} {c : ResolveArgs} {status : InteractionStatus} {record : InteractionRecord} :
      (⟨env, .resolve c⟩, .ok (.record record)) ∈ h → c.target = .ok status →
        Answered h c.interactionId status c.response
  | goal {env : Env} {steps : List GoalTxStep} {interactionId : String} {response : PyValue}
      {version : Int} {actor : WorkActor} {correlationId : String} {now : Option ℚ} :
      (⟨env, .goal steps⟩, .ok .unit) ∈ h →
        .resolveInput interactionId response version actor correlationId now ∈ steps →
        Answered h interactionId .answered response

/-- The answers of a Goal transaction are JSON already. -/
def GoalTxStep.plainAnswer : GoalTxStep → Bool
  | .resolveInput _ response _ _ _ _ => response.plain
  | _ => true

/-- The answers an operation gives are JSON already. -/
def InteractionOp.plainAnswers : InteractionOp → Bool
  | .resolve c => c.response.plain
  | .goal steps => steps.all GoalTxStep.plainAnswer
  | _ => true

/-- The condition on a step. -/
def PlainAnswers (_ : InteractionLog) (_ : InteractionDb) (call : InteractionCall) : Prop :=
  call.op.plainAnswers = true

/-- A settled row holds the answer. -/
def Holds (t : InteractionDb) (id : String) (status : InteractionStatus) (response : PyValue)
    (row : InteractionRow) : Prop :=
  t.interactions.find? id = some row ∧ row.status = status ∧
    status ∈ InteractionStatus.terminal ∧ response.eqJson row.record.response = true

/-- Settling with a plain answer. -/
theorem Settled.holds {row row' : InteractionRow} {t t' : InteractionDb} {response : PyValue}
    (h : Settled row row' t t') (hplain : response.plain = true)
    (hdoc : storedDict [("value", response)] = .ok row'.responseDoc) :
    Holds t' row.interactionId row'.status response row' :=
  ⟨by rw [h.lookup, if_pos rfl], rfl, h.target, eqJson_envelope hplain hdoc⟩

theorem Holds.kept {t t' : InteractionDb} {id : String} {status : InteractionStatus}
    {response : PyValue} {row : InteractionRow} (h : Holds t id status response row)
    (heffects : InteractionEffects H t t') : Holds t' id status response row := by
  obtain ⟨hrow, rfl, hterminal, hsame⟩ := h
  obtain ⟨row', hrow', hkept⟩ := kept_of_effects heffects hrow
  obtain rfl := hkept.settled hterminal
  exact ⟨hrow', rfl, hterminal, hsame⟩

/-- A body of a Goal transaction, and what the rest of it does. -/
theorem mem_goalSteps {steps : List GoalTxStep} {step : GoalTxStep} (hstep : step ∈ steps)
    {t t' : InteractionDb} {u : Unit} (h : (runGoalSteps H env steps).run t = .ok (u, t')) :
    ∃ t₁ t₂, (step.run H env).run t₁ = .ok ((), t₂) ∧ InteractionEffects H t₂ t' := by
  induction steps generalizing t with
  | nil => exact absurd hstep (by simp)
  | cons first steps ih =>
      obtain ⟨_, t₁, hfirst, hrest⟩ := Txn.run_bind_eq_ok.mp h
      rcases List.mem_cons.mp hstep with rfl | hstep
      · exact ⟨t, t₁, hfirst, effects_of_goalSteps hrest⟩
      · exact ih hstep hrest

/-- What the history says about the rows. -/
structure Recorded (H : Host) (h : InteractionLog) (t : InteractionDb) : Prop where
  requested : ∀ id request, Requested H h id request → ∃ row,
    t.interactions.find? id = some row ∧ interactionFingerprint H request = .ok row.requestFingerprint
  resolved : ∀ env c record, (⟨env, .resolve c⟩, .ok (.record record)) ∈ h → ∃ status row,
    c.target = .ok status ∧ Holds t c.interactionId status c.response row ∧ record = row.record
  answered : ∀ id status response, Answered h id status response →
    ∃ row, Holds t id status response row

/-- An operation that returned. -/
theorem perform_of_step {call : InteractionCall} {outcome : InteractionOutcome}
    {t t' : InteractionDb} (h : (interactions H).step call t = (.ok outcome, t')) :
    (call.op.perform H call.env).run t = .ok (outcome, t') :=
  (Txn.unitOfWork_ok.mp h).1

/-- What a new request leads to. -/
theorem requested_of_step {call : InteractionCall} {r : Except Raised InteractionOutcome}
    {t t' : InteractionDb} (hs : (interactions H).step call t = (r, t')) {id : String}
    {request : PyDict} (h : Requested H [(call, r)] id request) : ∃ row,
    t'.interactions.find? id = some row ∧
      interactionFingerprint H request = .ok row.requestFingerprint := by
  cases h with
  | create hmem hclean =>
      obtain ⟨rfl, rfl⟩ := Prod.mk.inj (List.mem_singleton.mp hmem)
      obtain ⟨record, hrun, hrecord⟩ := Txn.run_map_eq_ok.mp (perform_of_step hs)
      obtain rfl := InteractionOutcome.record.inj hrecord
      obtain ⟨c', fingerprint, hclean', hprint, ⟨rfl, row, hrow, rfl, rfl⟩ | ⟨row, hopened, rfl⟩⟩ :=
        createInteraction_eq_ok hrun
      · obtain rfl := Except.ok.inj (hclean.symm.trans hclean')
        exact ⟨row, hrow, hprint⟩
      · obtain rfl := Except.ok.inj (hclean.symm.trans hclean')
        exact ⟨row, (hopened.lookup _).trans (if_pos rfl), hopened.carried.fingerprint⟩
  | goal hmem hstep =>
      obtain ⟨rfl, rfl⟩ := Prod.mk.inj (List.mem_singleton.mp hmem)
      obtain ⟨_, hrun, -⟩ := Txn.run_map_eq_ok.mp (perform_of_step hs)
      obtain ⟨t₁, t₂, hcreate, heffects⟩ := mem_goalSteps hstep hrun
      obtain ⟨_, hcreate, -⟩ := Txn.run_map_eq_ok.mp hcreate
      obtain ⟨row, hid, hopened⟩ := createGoalInput_eq_ok hcreate
      have hrow : t₂.interactions.find? row.interactionId = some row := by
        rw [hopened.lookup, if_pos rfl]
      obtain ⟨row', hrow', hkept⟩ := kept_of_effects heffects hrow
      exact ⟨row', hid ▸ hrow', hkept.fingerprint ▸ hopened.carried.fingerprint⟩

/-- What a new answer leads to. -/
theorem resolved_of_step {env : Env} {c : ResolveArgs} {record : InteractionRecord}
    {t t' : InteractionDb} (hplain : c.response.plain = true)
    (hs : (interactions H).step ⟨env, .resolve c⟩ t = (.ok (.record record), t')) : ∃ status row,
    c.target = .ok status ∧ Holds t' c.interactionId status c.response row ∧ record = row.record := by
  obtain ⟨_, hrun, hrecord⟩ := Txn.run_map_eq_ok.mp (perform_of_step hs)
  obtain rfl := InteractionOutcome.record.inj hrecord
  obtain ⟨status, row, htarget, hrow,
    ⟨rfl, hstatus, hsame, rfl⟩ | ⟨row', hsettled, rfl, rfl, hdoc⟩⟩ := resolveInteraction_eq_ok hrun
  · exact ⟨status, row, htarget, ⟨hrow, hstatus, target_terminal htarget, hsame⟩, rfl⟩
  · refine ⟨_, row', htarget, ?_, rfl⟩
    rw [← interactionId_of_find? hrow]
    exact hsettled.holds hplain hdoc

theorem answered_of_step {call : InteractionCall} {r : Except Raised InteractionOutcome}
    {t t' : InteractionDb} (hplain : call.op.plainAnswers = true)
    (hs : (interactions H).step call t = (r, t')) {id : String} {status : InteractionStatus}
    {response : PyValue} (h : Answered [(call, r)] id status response) :
    ∃ row, Holds t' id status response row := by
  cases h with
  | resolve hmem htarget =>
      obtain ⟨rfl, rfl⟩ := Prod.mk.inj (List.mem_singleton.mp hmem)
      obtain ⟨status', row, htarget', hholds, -⟩ := resolved_of_step hplain hs
      obtain rfl := Except.ok.inj (htarget.symm.trans htarget')
      exact ⟨row, hholds⟩
  | goal hmem hstep =>
      obtain ⟨rfl, rfl⟩ := Prod.mk.inj (List.mem_singleton.mp hmem)
      obtain ⟨_, hrun, -⟩ := Txn.run_map_eq_ok.mp (perform_of_step hs)
      obtain ⟨t₁, t₂, hresolve, heffects⟩ := mem_goalSteps hstep hrun
      obtain ⟨_, hresolve, -⟩ := Txn.run_map_eq_ok.mp hresolve
      obtain ⟨row, row', rfl, hsettled, hstatus, hdoc⟩ := resolveGoalInput_eq_ok hresolve
      have hanswer : response.plain = true := List.all_eq_true.mp hplain _ hstep
      exact ⟨row', (hstatus ▸ hsettled.holds hanswer hdoc).kept heffects⟩

theorem Requested.cons {entry : InteractionCall × Except Raised InteractionOutcome}
    {h : InteractionLog} {id : String} {request : PyDict}
    (hreq : Requested H (entry :: h) id request) :
    Requested H [entry] id request ∨ Requested H h id request := by
  cases hreq with
  | create hmem hclean =>
      rcases List.mem_cons.mp hmem with hmem | hmem
      · exact .inl (.create (List.mem_singleton.mpr hmem) hclean)
      · exact .inr (.create hmem hclean)
  | goal hmem hstep =>
      rcases List.mem_cons.mp hmem with hmem | hmem
      · exact .inl (.goal (List.mem_singleton.mpr hmem) hstep)
      · exact .inr (.goal hmem hstep)

theorem Answered.cons {entry : InteractionCall × Except Raised InteractionOutcome}
    {h : InteractionLog} {id : String} {status : InteractionStatus} {response : PyValue}
    (hans : Answered (entry :: h) id status response) :
    Answered [entry] id status response ∨ Answered h id status response := by
  cases hans with
  | resolve hmem htarget =>
      rcases List.mem_cons.mp hmem with hmem | hmem
      · exact .inl (.resolve (List.mem_singleton.mpr hmem) htarget)
      · exact .inr (.resolve hmem htarget)
  | goal hmem hstep =>
      rcases List.mem_cons.mp hmem with hmem | hmem
      · exact .inl (.goal (List.mem_singleton.mpr hmem) hstep)
      · exact .inr (.goal hmem hstep)

theorem Recorded.step {h : InteractionLog} {t t' : InteractionDb} {call : InteractionCall}
    {r : Except Raised InteractionOutcome} (hrec : Recorded H h t)
    (hplain : call.op.plainAnswers = true) (hs : (interactions H).step call t = (r, t')) :
    Recorded H ((call, r) :: h) t' := by
  have heffects := effects_of_step hs
  refine ⟨fun id request hreq => ?_, fun env c record hmem => ?_, fun id status response hans => ?_⟩
  · rcases hreq.cons with hreq | hreq
    · exact requested_of_step hs hreq
    · obtain ⟨row, hrow, hprint⟩ := hrec.requested id request hreq
      obtain ⟨row', hrow', hkept⟩ := kept_of_effects heffects hrow
      exact ⟨row', hrow', hkept.fingerprint ▸ hprint⟩
  · rcases List.mem_cons.mp hmem with heq | hmem
    · obtain ⟨rfl, rfl⟩ := Prod.mk.inj heq
      exact resolved_of_step hplain hs
    · obtain ⟨status, row, htarget, hholds, hrecord⟩ := hrec.resolved env c record hmem
      exact ⟨status, row, htarget, hholds.kept heffects, hrecord⟩
  · rcases hans.cons with hans | hans
    · exact answered_of_step hplain hs hans
    · obtain ⟨row, hholds⟩ := hrec.answered id status response hans
      exact ⟨row, hholds.kept heffects⟩

theorem recorded_of_run {h : InteractionLog} {t : InteractionDb}
    (hrun : (interactions H).RunWhere PlainAnswers h t) : InteractionsOk H t ∧ Recorded H h t := by
  refine hrun.invariant (I := fun h t => InteractionsOk H t ∧ Recorded H h t)
    ⟨ok_start, ⟨?_, ?_, ?_⟩⟩ fun h t call r t' _ hi hplain hs =>
      ⟨ok_of_effects hi.1 (effects_of_step hs), hi.2.step hplain hs⟩
  · rintro id request (⟨hmem, -⟩ | ⟨hmem, -⟩) <;> exact absurd hmem (by simp)
  · exact fun env c record hmem => absurd hmem (by simp)
  · rintro id status response (⟨hmem, -⟩ | ⟨hmem, -⟩) <;> exact absurd hmem (by simp)

/-! ## 6.  Interactions are resolved once -/

/-- The row a create names: by the identity it asks for, or by its idempotency key. -/
def Names (H : Host) (env : Env) (a : InteractionArgs) (c : CleanInteraction) (t : InteractionDb)
    (row : InteractionRow) : Prop :=
  a.identity H env c t = row.interactionId ∨
    t.interactions.find? (a.identity H env c t) = none ∧ c.key ≠ "" ∧
      row.ownerKind = c.ownerKind ∧ row.ownerId = c.owner ∧ row.kind = c.kind ∧
      row.idempotencyKey = c.key

/-- A create that names a row answers from it, or raises. -/
theorem createInteraction_of_row {a : InteractionArgs} {c : CleanInteraction} {fingerprint : String}
    {t : InteractionDb} {row : InteractionRow} (hok : InteractionsOk H t) (hclean : a.clean = .ok c)
    (hprint : interactionFingerprint H (a.request H c) = .ok fingerprint)
    (hrow : t.interactions.find? row.interactionId = some row) (hnames : Names H env a c t row) :
    ∃ e : Raised, e.kind = .workConflict ∧ (createInteraction H env a).run t =
      if row.requestFingerprint = fingerprint then .ok (row.record, t) else .error e := by
  have hbody : (createInteraction H env a).run t =
      (createInteraction H env a).run t := rfl
  conv_rhs at hbody => unfold createInteraction
  rw [hclean, Txn.run_bind_of_ok (Txn.run_lift_ok c t), hprint,
    Txn.run_bind_of_ok (Txn.run_lift_ok fingerprint t), Txn.run_read_bind] at hbody
  have hensure (e : Raised) :
      (Txn.ensure (row.requestFingerprint = fingerprint) e >>= fun _ => pure row.record :
        Interact InteractionRecord).run t =
      if row.requestFingerprint = fingerprint then .ok (row.record, t) else .error e := by
    split
    · rw [Txn.run_bind_of_ok (Txn.run_ensure_of_pos ‹_›)]
      rfl
    · rw [Txn.run_bind_of_error (Txn.run_ensure_of_neg ‹_›)]
  rcases hnames with hid | ⟨hnone, hkey, hkind, howner, hk, hsame⟩
  · refine ⟨identityReused, rfl, hbody.trans ?_⟩
    dsimp only
    rw [hid, hrow]
    exact hensure _
  · -- The unique index leaves no other row with the key.
    have hkeyed : keyedInteraction t c = some row := by
      unfold keyedInteraction
      rw [if_neg hkey]
      have hmem : row ∈ t.interactions.rows := Table.mem_of_find? hrow
      cases hfind : t.interactions.rows.find? fun r => r.ownerKind == c.ownerKind &&
          r.ownerId == c.owner && r.kind == c.kind && r.idempotencyKey == c.key with
      | none =>
          have := List.find?_eq_none.mp hfind row hmem
          simp [hkind, howner, hk, hsame] at this
      | some r =>
          have hr := List.find?_some hfind
          simp only [Bool.and_eq_true, beq_iff_eq] at hr
          obtain ⟨⟨⟨hrkind, hrowner⟩, hrk⟩, hrkey⟩ := hr
          have hfound : t.interactions.find? r.interactionId = some r :=
            Table.find?_key_of_mem (List.mem_of_find?_eq_some hfind)
          have hids := hok.keys _ _ _ _ hfound hrow ⟨hrkey ▸ hkey, hrkind.trans hkind.symm,
            hrowner.trans howner.symm, hrk.trans hk.symm, hrkey.trans hsame.symm⟩
          rw [hids] at hfound
          exact hfound.symm.trans hrow
    refine ⟨interactionKeyReused, rfl, hbody.trans ?_⟩
    dsimp only
    rw [hnone]
    dsimp only
    rw [hkeyed]
    exact hensure _

/-- What holds of the interactions in a state that was reached with a history. -/
structure ResolvedOnce (H : Host) (h : InteractionLog) (t : InteractionDb) : Prop where
  /-- The events of an interaction carry the versions `1, …, version`. -/
  versions : ∀ id row, t.interactions.find? id = some row →
    (t.work.aggregateEvents "interaction" (strip id)).map (·.aggregateVersion) =
      List.range' 1 row.version
  /-- A settled row stays as it is, whatever happens. -/
  final : ∀ later t' id row, (interactions H).Extends (fun _ _ _ => True) h t later t' →
    t.interactions.find? id = some row → row.status ∈ InteractionStatus.terminal →
      t'.interactions.find? id = some row
  /-- A create that names an interaction returns its record when the request is equal,
  and raises without a trace when it differs. -/
  repeated : ∀ id request, Requested H h id request → ∃ row,
    t.interactions.find? id = some row ∧
    ∀ env a c, a.clean = .ok c → Names H env a c t row →
      (SameRequest request (a.request H c) → env.fault = none →
        (interactions H).step ⟨env, .create a⟩ t = (.ok (.record row.record), t)) ∧
      ((∃ es, strictEntries (a.request H c) "$" = .ok es) → ¬ SameRequest request (a.request H c) →
        ∃ e : Raised, e.kind = .workConflict ∧
          (interactions H).step ⟨env, .create a⟩ t = (.error e, t))
  /-- An accepted answer that is repeated returns the same record. -/
  resolvedAgain : ∀ env c record env', (⟨env, .resolve c⟩, .ok (.record record)) ∈ h →
    env'.fault = none → (interactions H).step ⟨env', .resolve c⟩ t = (.ok (.record record), t)
  /-- Schema and metadata are read as they were given. -/
  stored : ∀ id request s m, Requested H h id request →
    Dict.get? request "schema" = some (.dict s) → Dict.get? request "metadata" = some (.dict m) →
    ∃ record : InteractionRecord, storedDict s = .ok record.schema ∧
      storedDict m = .ok record.metadata ∧ (plainDict s = true → eqDict s record.schema = true) ∧
      (plainDict m = true → eqDict m record.metadata = true) ∧
      ∀ env, env.fault = none →
        (interactions H).step ⟨env, .get id none⟩ t = (.ok (.record record), t)
  /-- So is the answer. -/
  answer : ∀ id status response, Answered h id status response →
    ∃ record : InteractionRecord, record.status = status ∧
      response.eqJson record.response = true ∧
      ∀ env, env.fault = none →
        (interactions H).step ⟨env, .get id none⟩ t = (.ok (.record record), t)

theorem step_get {t : InteractionDb} {id : String} {row : InteractionRow}
    (hrow : t.interactions.find? id = some row) (hfault : env.fault = none) :
    (interactions H).step ⟨env, .get id none⟩ t = (.ok (.record row.record), t) := by
  refine Txn.unitOfWork_ok.mpr ⟨Txn.run_map_eq_ok.mpr ⟨row.record, ?_, rfl⟩, hfault⟩
  unfold getInteraction
  rw [Txn.run_read_bind, hrow]
  exact Txn.run_ensure_bind_eq_ok.mpr ⟨by simp, rfl⟩

/-- A repeated answer is answered from the row. -/
theorem step_resolve_again {t : InteractionDb} {c : ResolveArgs} {status : InteractionStatus}
    {row : InteractionRow} (htarget : c.target = .ok status)
    (hholds : Holds t c.interactionId status c.response row) (hfault : env.fault = none) :
    (interactions H).step ⟨env, .resolve c⟩ t = (.ok (.record row.record), t) := by
  obtain ⟨hrow, rfl, hterminal, hsame⟩ := hholds
  refine Txn.unitOfWork_ok.mpr ⟨Txn.run_map_eq_ok.mpr ⟨row.record, ?_, rfl⟩, hfault⟩
  unfold resolveInteraction
  refine Txn.run_lift_bind_eq_ok.mpr ⟨row.status, htarget, ?_⟩
  rw [Txn.run_read_bind, hrow]
  dsimp only
  rw [if_pos hterminal]
  exact Txn.run_ensure_bind_eq_ok.mpr ⟨⟨rfl, hsame⟩, rfl⟩

theorem perform_create (a : InteractionArgs) :
    (InteractionOp.create a).perform H env =
      InteractionOutcome.record <$> createInteraction H env a := rfl

theorem step_eq (op : InteractionOp) (t : InteractionDb) :
    (interactions H).step ⟨env, op⟩ t = Txn.unitOfWork (op.perform H env) env.fault t := rfl

/-- A create that was answered from a row hands out its record and leaves the state. -/
theorem step_create_again {a : InteractionArgs} {t : InteractionDb} {record : InteractionRecord}
    (hcreate : (createInteraction H env a).run t = .ok (record, t)) (hfault : env.fault = none) :
    (interactions H).step ⟨env, .create a⟩ t = (.ok (.record record), t) := by
  have hmap := (Txn.run_map_eq_ok (f := InteractionOutcome.record)).mpr ⟨record, hcreate, rfl⟩
  rw [step_eq, perform_create]
  exact Txn.unitOfWork_ok.mpr ⟨hmap, hfault⟩

/-- A create that raised leaves the state. -/
theorem step_create_refused {a : InteractionArgs} {t : InteractionDb} {e : Raised}
    (hcreate : (createInteraction H env a).run t = .error e) :
    (interactions H).step ⟨env, .create a⟩ t = (.error e, t) := by
  have hmap : (InteractionOutcome.record <$> createInteraction H env a).run t = .error e :=
    Txn.run_bind_of_error hcreate
  rw [step_eq, perform_create]
  exact Txn.unitOfWork_of_run_error hmap

/-- A create that names a row is answered by its record or refused, as the requests compare. -/
theorem repeated_create (hdigest : Function.Injective H.sha256) {a : InteractionArgs}
    {c : CleanInteraction} {request : PyDict} {t : InteractionDb} {row : InteractionRow}
    (hok : InteractionsOk H t) (hclean : a.clean = .ok c)
    (hprint : interactionFingerprint H request = .ok row.requestFingerprint)
    (hrow : t.interactions.find? row.interactionId = some row) (hnames : Names H env a c t row) :
    (SameRequest request (a.request H c) → env.fault = none →
      (interactions H).step ⟨env, .create a⟩ t = (.ok (.record row.record), t)) ∧
    ((∃ es, strictEntries (a.request H c) "$" = .ok es) → ¬ SameRequest request (a.request H c) →
      ∃ e : Raised, e.kind = .workConflict ∧
        (interactions H).step ⟨env, .create a⟩ t = (.error e, t)) := by
  refine ⟨fun hsame hfault => ?_, fun ⟨es, hes⟩ hne => ?_⟩
  · have hvalid : ∃ g, interactionFingerprint H (a.request H c) = .ok g := by
      obtain ⟨-, es, -, hes, -⟩ := hsame
      exact ⟨_, requestFingerprint_eq_ok.mpr ⟨es, hes, rfl⟩⟩
    obtain ⟨g, hg⟩ := hvalid
    obtain ⟨e, -, hcreate⟩ := createInteraction_of_row hok hclean hg hrow hnames
    have heq : row.requestFingerprint = g :=
      (interactionFingerprint_inj hdigest hprint hg).mpr hsame
    rw [if_pos heq] at hcreate
    exact step_create_again hcreate hfault
  · have hvalid : ∃ g, interactionFingerprint H (a.request H c) = .ok g :=
      ⟨_, requestFingerprint_eq_ok.mpr ⟨es, hes, rfl⟩⟩
    obtain ⟨g, hg⟩ := hvalid
    obtain ⟨e, hkind, hcreate⟩ := createInteraction_of_row hok hclean hg hrow hnames
    have hdiffers : row.requestFingerprint ≠ g :=
      fun heq => hne ((interactionFingerprint_inj hdigest hprint hg).mp heq)
    rw [if_neg hdiffers] at hcreate
    exact ⟨e, hkind, step_create_refused hcreate⟩

/-- **Interactions are resolved once**, in every run whose answers are JSON already. -/
theorem interactions_resolved_once (hdigest : Function.Injective H.sha256) {h : InteractionLog}
    {t : InteractionDb} (hrun : (interactions H).RunWhere PlainAnswers h t) :
    ResolvedOnce H h t := by
  obtain ⟨hok, hrec⟩ := recorded_of_run hrun
  refine ⟨hok.versions, fun later t' id row hext hrow hterminal => ?_, fun id request hreq => ?_,
    fun env c record env' hmem hfault => ?_, fun id request s m hreq hs hm => ?_,
    fun id status response hans => ?_⟩
  · refine hext.invariant (I := fun _ t' => t'.interactions.find? id = some row) hrow
      fun later t₁ call r t₂ _ hrow₁ _ hs => ?_
    obtain ⟨row', hrow', hkept⟩ := kept_of_effects (effects_of_step hs) hrow₁
    rw [hrow', hkept.settled hterminal]
  · obtain ⟨row, hrow, hprint⟩ := hrec.requested id request hreq
    have hid : row.interactionId = id := interactionId_of_find? hrow
    refine ⟨row, hrow, fun env a c hclean hnames => ?_⟩
    exact repeated_create hdigest hok hclean hprint (hid ▸ hrow) hnames
  · obtain ⟨status, row, htarget, hholds, rfl⟩ := hrec.resolved env c record hmem
    exact step_resolve_again htarget hholds hfault
  · obtain ⟨row, hrow, hprint⟩ := hrec.requested id request hreq
    obtain ⟨request', hcarried⟩ := hok.carried id row hrow
    have hsame := (interactionFingerprint_inj hdigest hcarried.fingerprint hprint).mp rfl
    obtain ⟨s', hs', hschema⟩ := hcarried.schema
    obtain ⟨m', hm', hmetadata⟩ := hcarried.metadata
    rw [hsame.storedDict_eq hs' hs] at hschema
    rw [hsame.storedDict_eq hm' hm] at hmetadata
    exact ⟨row.record, hschema, hmetadata, fun hplain => eqDict_storedDict hplain hschema,
      fun hplain => eqDict_storedDict hplain hmetadata, fun env hfault => step_get hrow hfault⟩
  · obtain ⟨row, hrow, hstatus, -, hsame⟩ := hrec.answered id status response hans
    exact ⟨row.record, hstatus, hsame, fun env hfault => step_get hrow hfault⟩

/-- A question asked under the identity `i`, and its answer. -/
def askedOnce : InteractionCall :=
  ⟨.clock 0, .create { kind := "question", prompt := "Which?", scope := .empty, ownerKind := "run"
                       ownerId := "r", interactionId := "i" }⟩

def answeredAt (now : ℚ) (response : PyValue) : InteractionCall :=
  ⟨.clock now, .resolve { interactionId := "i", status := "answered", response := response }⟩

/-- The steps that ask, answer and answer again. -/
def asked : Except Raised InteractionOutcome × InteractionDb :=
  (interactions Host.plain).step askedOnce (interactions Host.plain).start

def answered (response : PyValue) : Except Raised InteractionOutcome × InteractionDb :=
  (interactions Host.plain).step (answeredAt 1 response) asked.2

def answeredTwice (response : PyValue) : Except Raised InteractionOutcome × InteractionDb :=
  (interactions Host.plain).step (answeredAt 2 response) (answered response).2

def answerLog (response : PyValue) : InteractionLog :=
  [(answeredAt 1 response, (answered response).1), (askedOnce, asked.1)]

theorem run_answered {C : InteractionLog → InteractionDb → InteractionCall → Prop}
    (response : PyValue) (hasked : C [] (interactions Host.plain).start askedOnce)
    (hanswered : C [(askedOnce, asked.1)] asked.2 (answeredAt 1 response)) :
    (interactions Host.plain).RunWhere C (answerLog response) (answered response).2 :=
  .step (.step .start hasked Prod.mk.eta.symm) hanswered Prod.mk.eta.symm

theorem resolved_once_textAnswer :
    ResolvedOnce Host.plain (answerLog (.str "a")) (answered (.str "a")).2 :=
  interactions_resolved_once (fun _ _ h => String.ofList_injective h)
    (run_answered (.str "a") rfl rfl)

/-- An operation that raises changes nothing. -/
theorem interactions_error {call : InteractionCall} {t t' : InteractionDb} {e : Raised}
    (h : (interactions H).step call t = (.error e, t')) : t' = t :=
  Txn.unitOfWork_error h

/-- A record was handed out, not an exception. -/
def handsOut : Except Raised InteractionOutcome → Bool
  | .ok (.record _) => true
  | _ => false

theorem handsOut_eq_true {r : Except Raised InteractionOutcome} (h : handsOut r = true) :
    ∃ record, r = .ok (.record record) := by
  cases r with
  | error e => exact absurd h (by simp [handsOut])
  | ok outcome =>
    cases outcome with
    | unit => exact absurd h (by simp [handsOut])
    | record record => exact ⟨record, rfl⟩

/-- An answer that is a tuple is stored as a list, and does not equal what is read back. -/
theorem tuple_answer_refused_again :
    ∃ (h : InteractionLog) (t : InteractionDb) (record : InteractionRecord) (e : Raised),
      (interactions Host.plain).Run h t ∧
      (answeredAt 1 (.tuple [.str "a"]), .ok (.record record)) ∈ h ∧
      (interactions Host.plain).step (answeredAt 2 (.tuple [.str "a"])) t = (.error e, t) := by
  have hfacts : handsOut (answered (.tuple [.str "a"])).1 = true ∧
      (answeredTwice (.tuple [.str "a"])).1.isOk = false := by
    decide +kernel
  obtain ⟨record, hfirst⟩ := handsOut_eq_true hfacts.1
  have hrun := run_answered (C := fun _ _ _ => True) (.tuple [.str "a"]) trivial trivial
  have hagain : answeredTwice (.tuple [.str "a"]) = ((answeredTwice (.tuple [.str "a"])).1,
      (answeredTwice (.tuple [.str "a"])).2) := Prod.mk.eta.symm
  cases hsecond : (answeredTwice (.tuple [.str "a"])).1 with
  | ok outcome => exact absurd hfacts.2 (by simp [hsecond, Except.isOk, Except.toBool])
  | error e =>
      rw [hsecond] at hagain
      rw [interactions_error hagain] at hagain
      refine ⟨_, _, record, e, hrun.run, ?_, hagain⟩
      exact hfirst ▸ List.mem_cons_self

end WorkFabric
end VariantOne
