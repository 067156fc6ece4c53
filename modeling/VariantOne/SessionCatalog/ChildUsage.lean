import VariantOne.Lib.Machine
import VariantOne.Lib.Trail
import VariantOne.SessionCatalog.ChildThreads

/-!
# The usage of children

What the run of a child has used is charged to its own chat and to the chats above it, one chat in
one transaction.  The walk is repeated from its start until it has reached the top: a charge is keyed
by the child and the generation of its run, so a repetition adds nothing.

The steps of walks are interleaved in every order here, with a stop of the process or an error of the
budget store between any two of them.  A walk that ends has charged every chat on the trail
(`RolledUp`), and a restart waits for it.
-/

namespace VariantOne
namespace SessionCatalog

open SessionRuntime (Accounts Amounts BudgetCharge ChatRuntimeRecord RuntimeIdentity RuntimeReply
  SessionError amount budgetKeys cleanUsage)

/-! ## 1.  Charging -/

/-- What `record_run_usage` takes from a receipt. -/
def receiptUsage (receipt : Amounts) : List (String × Option ℚ) :=
  [("provider_calls", some (amount receipt "llm_calls")), ("tokens", some (amount receipt "total_tokens")),
    ("cost_usd", some (amount receipt "cost_usd")), ("wall_time_s", some (amount receipt "wall_time_s"))]

/-- The run a generation of a child is charged as. -/
def rollupId (childId : String) (generation : Nat) : String := s!"child-rollup:{childId}:{generation}"

/-- `str(exc)` -/
def errorText : SessionError → String
  | .runtime message | .value message | .lookup message | .type message | .runtimeDeleted message
  | .budgetExhausted message => message

/-- What a call of the store has raised. -/
def raisedText : RuntimeReply → String
  | .raised e => errorText e
  | _ => ""

namespace ChildDb

/-- `record_run_usage` -/
def recordRunUsage (chatId runId : String) (receipt : Amounts) (uuid eventId : String) (now : ℚ)
    (db : ChildDb) : RuntimeReply × ChildDb :=
  match runtimeChat chatId with
  | .error e => (.raised e, db)
  | .ok chat =>
      let (reply, accounts) :=
        SessionRuntime.recordUsage chat runId (receiptUsage receipt) uuid eventId now db.accounts
      (reply, { db with accounts := accounts })

/-- The chat a chat was spawned under; empty if there is none. -/
def parentOf (db : ChildDb) (chatId : String) : String := (db.owner chatId).elim "" ChildRow.parentChatId

/-- The chats a chat of a child is charged with: itself, and the chats above it. -/
def nextChat (db : ChildDb) (chatId : String) : Option String :=
  if db.parentOf chatId = "" then none else some (db.parentOf chatId)

/-- `a` is the chat itself or above it. -/
def Ancestor (db : ChildDb) (chatId a : String) : Prop := Trail.Reaches db.nextChat chatId a

/-- `cancel`, up to the job of the child: the generation that was cancelled. -/
def cancel (parentChatId childId : String) (db : ChildDb) :
    Except SessionError (Option Nat) × ChildDb :=
  match (db.row childId).filter fun r => r.parentChatId = parentChatId with
  | none => (.error (.lookup "unknown child handle"), db)
  | some r =>
      let (changed, db) := db.cancelQueued childId
      (.ok (if changed = 1 then some r.runGeneration else none), db)

/-- `restart`, once a usage that was pending has been walked. -/
def restart (cap : Capacity) (parentChatId childId : String) (expectedGeneration : Option Nat)
    (requestId message : String) (u : BitVec 128) (now : ℚ) (db : ChildDb) :
    Except SessionError ChildRow × ChildDb :=
  match (db.row childId).filter fun r => r.parentChatId = parentChatId with
  | none => (.error (.lookup "unknown child handle"), db)
  | some r =>
      if requestId ≠ "" ∧ r.restartRequestId = requestId then
        if r.restartMessage ≠ message then
          (.error (.runtime "restart request_id already has different guidance"), db)
        else (.ok r, db)
      else if expectedGeneration.any (· ≠ r.runGeneration) then
        (.error (.runtime "child generation changed before restart"), db)
      else if r.status.admitted then (.error (.runtime "child is already active"), db)
      else if r.usageRollupState = .pending then
        (.error (.runtime ("child usage roll-up is incomplete; retry after its budget " ++
          "authority is available")), db)
      else Txn.unitOfWork (restartTxn cap r requestId message u now) none db

end ChildDb

/-! ## 2.  Walks -/

inductive WalkPhase where
  /-- Before a charge. -/
  | walking
  /-- The chat is charged, its owner is not read. -/
  | charged
  | failed (error : String)
  deriving DecidableEq, Repr

/-- `_rollup_usage`, between two transactions. -/
structure RollupWalk where
  childId : String
  generation : Nat
  usage : Amounts
  current : String
  visited : List String
  phase : WalkPhase
  deriving DecidableEq, Repr

/-- The loop has ended. -/
def RollupWalk.done (k : RollupWalk) : Prop := k.current = "" ∨ k.current ∈ k.visited

instance (k : RollupWalk) : Decidable k.done := inferInstanceAs (Decidable (_ ∨ _))

/-- The children, their accounts and the walks under way. -/
structure UsageWorld where
  db : ChildDb
  walks : List RollupWalk

inductive UsageStep where
  | spawn (cap : Capacity) (identity : RuntimeIdentity) (a : ChildDb.SpawnArgs) (u v : BitVec 128)
      (now : ℚ)
  | claim (childId : String)
  /-- The job of a child could not be admitted. -/
  | interrupt (childId error : String)
  | finish (childId : String) (f : ChildDb.Finish) (settles : f.status.terminal = true) (u : BitVec 128)
      (now : ℚ)
  | cancel (parentChatId childId : String)
  | restart (cap : Capacity) (parentChatId childId : String) (expectedGeneration : Option Nat)
      (requestId message : String) (u : BitVec 128) (now : ℚ)
  /-- `_rollup_usage`, of a finish, of a restart or of `recover_usage_rollups`. -/
  | rollup (childId : String)
  | charge (walk : Nat) (uuid eventId : String) (now : ℚ)
  | owner (walk : Nat)
  /-- The budget store raises. -/
  | raise (walk : Nat) (error : String)
  | settle (walk : Nat)
  /-- The usage of another run. -/
  | record (chatId runId : String) (receipt : Amounts) (uuid eventId : String) (now : ℚ)
  /-- The process stops. -/
  | stop

inductive UsageReply where
  | nothing
  | raised (e : SessionError)
  /-- A generation has ended; with its usage, if it ran. -/
  | settled (childId : String) (generation : Nat) (usage : Option Amounts)
  deriving DecidableEq, Repr

namespace UsageWorld

/-- Write back a walk. -/
def setWalk (w : UsageWorld) (i : Nat) (k : RollupWalk) : UsageWorld := { w with walks := w.walks.set i k }

/-- `_rollup_usage` begins. -/
def rollup (childId : String) (w : UsageWorld) : UsageWorld :=
  match w.db.row childId with
  | none => w
  | some r =>
      if r.usageRollupState ≠ .pending then w
      else
        { w with walks := w.walks ++
            [⟨childId, max 1 r.runGeneration, r.usage, r.childChatId, [], .walking⟩] }

/-- `record_run_usage` of a walk. -/
def charge (i : Nat) (k : RollupWalk) (uuid eventId : String) (now : ℚ) (w : UsageWorld) : UsageWorld :=
  match w.db.recordRunUsage k.current (rollupId k.childId k.generation) k.usage uuid eventId now with
  | (.recorded _, db) =>
      { w with db := db }.setWalk i { k with visited := k.current :: k.visited, phase := .charged }
  | (reply, db) => { w with db := db }.setWalk i { k with phase := .failed (raisedText reply) }

/-- The rollup is complete. -/
def completeWrite (r : ChildRow) : ChildRow :=
  { r with usageRollupState := .complete, usageRollupError := "" }

/-- The rollup has failed. -/
def failedWrite (error : String) (r : ChildRow) : ChildRow :=
  { r with usageRollupState := .pending, usageRollupError := clip error 2000 }

/-- The last transaction of a walk. -/
def settle (i : Nat) (k : RollupWalk) (w : UsageWorld) : UsageWorld :=
  match k.phase with
  | .failed error =>
      { db := (w.db.update k.childId (fun r => r.runGeneration = k.generation) (failedWrite error)
          fun _ => rfl).2
        walks := w.walks.eraseIdx i }
  | .walking =>
      if k.done then
        { db := (w.db.update k.childId
            (fun r => r.runGeneration = k.generation && r.usageRollupState = .pending) completeWrite
            fun _ => rfl).2
          walks := w.walks.eraseIdx i }
      else w
  | .charged => w

/-- A step of a walk that is there. -/
def walkStep (l : UsageStep) (i : Nat) (k : RollupWalk) (w : UsageWorld) : UsageWorld :=
  match l, k.phase with
  | .charge _ uuid eventId now, .walking => if k.done then w else w.charge i k uuid eventId now
  | .owner _, .charged => w.setWalk i { k with current := w.db.parentOf k.current, phase := .walking }
  | .raise _ error, .walking | .raise _ error, .charged => w.setWalk i { k with phase := .failed error }
  | .settle _, _ => w.settle i k
  | _, _ => w

/-- What a finish tells the history. -/
def finishReply (childId : String) (usage : Amounts) (r : Option ChildRow) :
    Except SessionError Nat → UsageReply
  | .error e => .raised e
  | .ok changed =>
      if changed = 1 then r.elim .nothing fun r => .settled childId r.runGeneration (some usage)
      else .nothing

def step (l : UsageStep) (w : UsageWorld) : UsageReply × UsageWorld :=
  match l with
  | .spawn cap identity a u v now =>
      (.nothing, { w with db := (w.db.spawn cap identity a u v now).2 })
  | .claim childId => (.nothing, { w with db := (w.db.claim childId).2 })
  | .interrupt childId error =>
      (.nothing, { w with db := (w.db.update childId (fun r => r.status = .queued)
        (fun r => { r with status := .interrupted, error := clip error 2000 }) fun _ => rfl).2 })
  | .finish childId f _ u now =>
      let (x, db) := Txn.unitOfWork (ChildDb.finishTxn childId f u now) none w.db
      (finishReply childId f.usage (w.db.row childId) x, { w with db := db })
  | .cancel parentChatId childId =>
      match w.db.cancel parentChatId childId with
      | (.ok (some generation), db) => (.settled childId generation none, { w with db := db })
      | (.ok none, db) => (.nothing, { w with db := db })
      | (.error e, db) => (.raised e, { w with db := db })
  | .restart cap parentChatId childId expectedGeneration requestId message u now =>
      (.nothing, { w with db :=
        (w.db.restart cap parentChatId childId expectedGeneration requestId message u now).2 })
  | .rollup childId => (.nothing, w.rollup childId)
  | .record chatId runId receipt uuid eventId now =>
      (.nothing, { w with db := (w.db.recordRunUsage chatId runId receipt uuid eventId now).2 })
  | .stop => (.nothing, { w with walks := [] })
  | .charge i _ _ _ | .owner i | .raise i _ | .settle i =>
      (.nothing, w.walks[i]?.elim w fun k => w.walkStep l i k)

end UsageWorld

/-- The usage of children on a host without chats. -/
def childUsage : Machine UsageWorld UsageStep UsageReply :=
  ⟨⟨⟨⟨SessionRuntime.Registry.withRuntimes Table.empty, Table.empty⟩, Table.empty, Table.empty⟩, []⟩,
    UsageWorld.step⟩

/-! ## 3.  The keys of charges -/

/-- A text that neither begins nor ends with white space is its own strip. -/
theorem strip_of_ends {s : String} (hne : s.toList ≠ [])
    (hhead : isSpace (s.toList.head hne) = false) (hlast : isSpace (s.toList.getLast hne) = false) :
    strip s = s := by
  have hdrop : s.toList.dropWhile isSpace = s.toList := by
    rw [List.dropWhile_eq_self_iff]
    intro hpos
    rw [← List.head_eq_getElem hne, hhead]
    simp
  have hrdrop : s.toList.rdropWhile isSpace = s.toList := by
    rw [List.rdropWhile_eq_self_iff]
    intro _
    rw [hlast]
    simp
  rw [strip_eq, stripChars, hdrop, hrdrop, String.ofList_toList]

/-- A digit is no white space. -/
theorem isSpace_of_isDigit {c : Char} (h : c.isDigit = true) : isSpace c = false := by
  unfold Char.isDigit at h
  unfold isSpace
  have hval : c.toNat = c.val.toNat := rfl
  simp only [Bool.and_eq_true, decide_eq_true_eq, UInt32.le_iff_toNat_le] at h
  have hlow : 48 ≤ c.toNat := h.1
  have hhigh : c.toNat ≤ 57 := h.2
  simp only [Bool.or_eq_false_iff, Bool.and_eq_false_iff, decide_eq_false_iff_not, beq_eq_false_iff_ne]
  omega

/-- The marker of a birth is not the one of a chat of a user. -/
theorem birthMarker_ne_complete (parent : String) : "complete" ≠ ChildDb.birthMarker parent := by
  intro heq
  have hlist := congrArg String.toList heq
  have htext : (ChildDb.birthMarker parent).toList = "child:".toList ++ parent.toList := by
    rw [ChildDb.birthMarker]
    simp [toString]
  rw [htext] at hlist
  simp at hlist

theorem toList_rollupId (childId : String) (generation : Nat) :
    (rollupId childId generation).toList =
      "child-rollup:".toList ++ childId.toList ++ ':' :: Nat.toDigits 10 generation := by
  have htext : rollupId childId generation =
      "child-rollup:" ++ childId ++ ":" ++ generation.repr := rfl
  rw [htext]
  simp [Nat.repr]

theorem rollupId_injective {childId childId' : String} {g g' : Nat}
    (h : rollupId childId g = rollupId childId' g') : childId = childId' ∧ g = g' := by
  have hlist := congrArg String.toList h
  rw [toList_rollupId, toList_rollupId, List.append_assoc, List.append_assoc] at hlist
  have hlist := List.append_cancel_left hlist
  have hdigit : ∀ n, ∀ c ∈ Nat.toDigits 10 n, (c != ':') = true := by
    intro n c hc
    have hc := Nat.isDigit_of_mem_toDigits (by decide) (by decide) hc
    rw [bne_iff_ne]
    rintro rfl
    exact absurd hc (by decide)
  -- the digits are what is behind the last colon
  have htake : ∀ (text : List Char) (n : Nat),
      ((text ++ ':' :: Nat.toDigits 10 n).reverse.takeWhile (· != ':')).reverse = Nat.toDigits 10 n := by
    intro text n
    rw [List.reverse_append, List.reverse_cons, List.append_assoc, List.takeWhile_append_of_pos]
    · simp
    · exact fun c hc => hdigit n c (List.mem_reverse.mp hc)
  have hdigits := htake childId.toList g
  rw [hlist, htake childId'.toList g'] at hdigits
  obtain rfl := Json.toDigits_injective hdigits
  exact ⟨String.toList_inj.mp (List.append_cancel_right hlist), rfl⟩

theorem stableRunId_rollupId (childId : String) (g : Nat) (uuid : String) :
    SessionRuntime.stableRunId (rollupId childId g) uuid = rollupId childId g := by
  have hstrip : strip (rollupId childId g) = rollupId childId g := by
    have hne : (rollupId childId g).toList ≠ [] := by
      rw [toList_rollupId]
      simp
    refine strip_of_ends hne ?_ ?_
    · simp only [toList_rollupId]
      rfl
    · have hlast : (rollupId childId g).toList.getLast hne ∈ Nat.toDigits 10 g := by
        simp only [toList_rollupId]
        rw [List.getLast_append_of_ne_nil _ (by simp), List.getLast_cons Nat.toDigits_ne_nil]
        exact List.getLast_mem _
      exact isSpace_of_isDigit (Nat.isDigit_of_mem_toDigits (by decide) (by decide) hlast)
  unfold SessionRuntime.stableRunId
  rw [hstrip, if_neg]
  intro hempty
  have hlist := congrArg String.toList hempty
  rw [toList_rollupId] at hlist
  exact absurd hlist (by simp)

/-! ## 4.  What a charge does -/

namespace ChildDb

/-- What a chat has been charged for a run. -/
def charge? (db : ChildDb) (chat runId : String) : Option Amounts :=
  (db.accounts.charges.find? (chat, runId)).map (·.usage)

/-- The sum of the charges of a chat. -/
def total (db : ChildDb) (chat key : String) : ℚ :=
  ((db.accounts.charges.rows.filter fun c => c.chatId = chat).map fun c => amount c.usage key).sum

/-- A chat is charged with the usage of a generation. -/
def Charged (db : ChildDb) (a childId : String) (generation : Nat) (usage : Amounts) : Prop :=
  ∃ chat, runtimeChat a = .ok chat ∧
    db.charge? chat (rollupId childId generation) = some (cleanUsage (receiptUsage usage))

/-- One more charge, of a chat that has a runtime. -/
structure NewCharge (db : ChildDb) (chat run : String) (usage : Amounts) (db' : ChildDb) : Prop where
  wf : Dict.WF usage
  children : db'.children = db.children
  fresh : db.accounts.charges.find? (chat, run) = none
  charge : ∃ c : BudgetCharge, c.chatId = chat ∧ c.runId = run ∧ c.usage = usage ∧
    db'.accounts.charges.rows = db.accounts.charges.rows ++ [c]
  runtime : ∃ row row' : ChatRuntimeRecord, db.accounts.registry.runtimes.find? chat = some row ∧
    row'.budgetUsed = SessionRuntime.addUsage row.budgetUsed usage ∧
    row'.creationSagaState = row.creationSagaState ∧
    ∀ other, db'.accounts.registry.runtimes.find? other =
      if chat = other then some row' else db.accounts.registry.runtimes.find? other

variable {db db' : ChildDb}

/-- **A charge** is made once, by one more row. -/
theorem recordRunUsage_cases {chatId runId uuid eventId : String} {receipt : Amounts} {now : ℚ}
    {reply : RuntimeReply}
    (h : db.recordRunUsage chatId runId receipt uuid eventId now = (reply, db')) :
    db' = db ∧ (∀ row, reply = .recorded row → ∃ chat, runtimeChat chatId = .ok chat ∧
        db.charge? chat (SessionRuntime.stableRunId runId uuid) = some (cleanUsage (receiptUsage receipt))) ∨
      ∃ chat, runtimeChat chatId = .ok chat ∧ NewCharge db chat
        (SessionRuntime.stableRunId runId uuid) (cleanUsage (receiptUsage receipt)) db' := by
  unfold recordRunUsage at h
  split at h
  · obtain ⟨rfl, rfl⟩ := Prod.mk.inj h
    exact .inl ⟨rfl, fun row hrow => (by cases hrow)⟩
  · rename_i chat hchat
    cases hrecord : SessionRuntime.recordUsage chat runId (receiptUsage receipt) uuid eventId now
      db.accounts with
    | mk reply' accounts =>
        rw [hrecord] at h
        obtain ⟨rfl, rfl⟩ := Prod.mk.inj h
        unfold SessionRuntime.recordUsage at hrecord
        split at hrecord
        · obtain ⟨rfl, rfl⟩ := Prod.mk.inj hrecord
          exact .inl ⟨rfl, fun row hrow => (by cases hrow)⟩
        · rename_i row hrow
          split at hrecord
          · rename_i prior hprior
            split at hrecord
            · obtain ⟨rfl, rfl⟩ := Prod.mk.inj hrecord
              exact .inl ⟨rfl, fun row hrow => (by cases hrow)⟩
            · rename_i hsame
              obtain ⟨rfl, rfl⟩ := Prod.mk.inj hrecord
              refine .inl ⟨rfl, fun _ _ => ⟨chat, hchat, ?_⟩⟩
              rw [charge?, hprior, Option.map_some, not_not.mp hsame]
          · rename_i hfresh
            split at hrecord
            · obtain ⟨rfl, rfl⟩ := Prod.mk.inj hrecord
              exact .inl ⟨rfl, fun row hrow => (by cases hrow)⟩
            · rename_i charges hins
              obtain ⟨rfl, rfl⟩ := Prod.mk.inj hrecord
              refine .inr ⟨chat, hchat, SessionRuntime.wf_cleanUsage _, rfl, hfresh, ⟨_, rfl, rfl, rfl, (Table.insert?_eq_some hins).2⟩,
                row, SessionRuntime.usageChange (cleanUsage (receiptUsage receipt)) now row, hrow, rfl,
                rfl, ?_⟩
              exact SessionRuntime.find?_updateRuntime (SessionRuntime.chatId_usageChange _ now) hrow

namespace NewCharge

variable {chat run : String} {usage : Amounts}

theorem charge?_eq (hc : NewCharge db chat run usage db') (chat' run' : String) :
    db'.charge? chat' run' = if chat = chat' ∧ run = run' then some usage else db.charge? chat' run' := by
  obtain ⟨c, rfl, rfl, rfl, hrows⟩ := hc.charge
  unfold charge?
  rw [Table.find?_of_rows_append hrows]
  by_cases heq : c.chatId = chat' ∧ c.runId = run'
  · have hkey : c.key = (chat', run') := Prod.ext heq.1 heq.2
    rw [if_pos heq, if_pos hkey]
    rfl
  · have hkey : c.key ≠ (chat', run') := fun hkey => heq (Prod.mk.inj hkey)
    rw [if_neg heq, if_neg hkey]

theorem total_eq (hc : NewCharge db chat run usage db') (chat' key : String) :
    db'.total chat' key = db.total chat' key + if chat = chat' then amount usage key else 0 := by
  obtain ⟨c, rfl, rfl, rfl, hrows⟩ := hc.charge
  unfold total
  rw [hrows, List.filter_append, List.map_append, List.sum_append]
  congr 1
  by_cases heq : c.chatId = chat'
  · simp [heq]
  · simp [heq]

/-- Charges are not taken back. -/
theorem charged (hc : NewCharge db chat run usage db') {a childId : String} {g : Nat} {u : Amounts}
    (h : db.Charged a childId g u) : db'.Charged a childId g u := by
  obtain ⟨chat', hchat', hcharge⟩ := h
  refine ⟨chat', hchat', ?_⟩
  rw [hc.charge?_eq, if_neg ?_]
  · exact hcharge
  · rintro ⟨rfl, rfl⟩
    rw [charge?, hc.fresh] at hcharge
    cases hcharge

end NewCharge

/-! ### Rows that are rewritten -/

/-- The rows of the children are rewritten; their identities and places in the tree stay. -/
structure Rewritten (F : ChildRow → ChildRow) (db db' : ChildDb) : Prop where
  accounts : db'.accounts = db.accounts
  rows : db'.children.rows = db.children.rows.map F
  keeps : ∀ r, (F r).childId = r.childId ∧ (F r).childChatId = r.childChatId ∧
    (F r).parentChatId = r.parentChatId

namespace Rewritten

variable {F : ChildRow → ChildRow}

theorem row_eq (hF : Rewritten F db db') (childId : String) :
    db'.row childId = (db.row childId).map F := by
  have htable : db'.children = db.children.mapRows F fun r => (hF.keeps r).1 := Table.ext_rows hF.rows
  unfold row
  rw [htable, Table.find?_mapRows]

theorem parentOf_eq (hF : Rewritten F db db') : db'.parentOf = db.parentOf := by
  funext chat
  have hchat : ((fun r : ChildRow => decide (r.childChatId = chat)) ∘ F) =
      fun r => decide (r.childChatId = chat) := funext fun r => by
    rw [Function.comp_apply, (hF.keeps r).2.1]
  unfold parentOf owner
  rw [hF.rows, List.find?_map, hchat]
  cases db.children.rows.find? fun r => decide (r.childChatId = chat) with
  | none => rfl
  | some r => exact (hF.keeps r).2.2

theorem nextChat_eq (hF : Rewritten F db db') : db'.nextChat = db.nextChat := by
  funext chat
  unfold nextChat
  rw [hF.parentOf_eq]

theorem ancestor_eq (hF : Rewritten F db db') : db'.Ancestor = db.Ancestor := by
  funext chat
  unfold Ancestor
  rw [hF.nextChat_eq]

theorem charge?_eq (hF : Rewritten F db db') : db'.charge? = db.charge? := by
  funext chat run
  unfold charge?
  rw [hF.accounts]

theorem charged_eq (hF : Rewritten F db db') : db'.Charged = db.Charged := by
  funext a childId g u
  unfold Charged
  rw [hF.charge?_eq]

end Rewritten

/-- An update that keeps the identities rewrites the rows. -/
theorem rewritten_update {f : ChildRow → ChildRow} (childId : String) (cond : ChildRow → Bool)
    (hf : ∀ r, (f r).childId = r.childId ∧ (f r).childChatId = r.childChatId ∧
      (f r).parentChatId = r.parentChatId) (hdb : db'.accounts = db.accounts)
    (hchildren : db'.children = (db.update childId cond f fun r => (hf r).1).2.children) :
    Rewritten (fun r => if r.childId = childId && cond r then f r else r) db db' := by
  refine ⟨hdb, by rw [hchildren]; rfl, fun r => ?_⟩
  split
  · exact hf r
  · exact ⟨rfl, rfl, rfl⟩

theorem rewritten_updated (db : ChildDb) (childId : String) (cond : ChildRow → Bool)
    {f : ChildRow → ChildRow} (hf : ∀ r, (f r).childId = r.childId ∧ (f r).childChatId = r.childChatId ∧
      (f r).parentChatId = r.parentChatId) :
    Rewritten (fun r => if r.childId = childId && cond r then f r else r) db
      (db.update childId cond f fun r => (hf r).1).2 :=
  rewritten_update childId cond hf rfl rfl

/-! ### Runtimes that are added -/

/-- Runtimes are added, each of them unused and none of them the runtime of a birth. -/
def Hosted (db db' : ChildDb) : Prop :=
  ∀ chat, db'.accounts.registry.runtimes.find? chat = db.accounts.registry.runtimes.find? chat ∨
    db.accounts.registry.runtimes.find? chat = none ∧
      ∃ r, db'.accounts.registry.runtimes.find? chat = some r ∧ r.budgetUsed = [] ∧
        r.creationSagaState = "complete"

theorem hosted_ensureRuntime {chat : String} {identity : RuntimeIdentity} {now : ℚ}
    {x : Except SessionError ChatRuntimeRecord} {runtimes : SessionRuntime.RuntimeTable}
    (h : SessionRuntime.ensureRuntime chat identity now db.accounts.registry.runtimes = (x, runtimes)) :
    Hosted db { db with accounts.registry.runtimes := runtimes } := by
  intro other
  unfold SessionRuntime.ensureRuntime at h
  split at h
  · split at h
    · obtain ⟨-, rfl⟩ := Prod.mk.inj h
      exact .inl rfl
    · obtain ⟨-, rfl⟩ := Prod.mk.inj h
      exact .inl rfl
  · rename_i hnone
    split at h
    · rename_i t hinsert
      obtain ⟨-, rfl⟩ := Prod.mk.inj h
      have hfind := Table.find?_of_rows_append (Table.insert?_eq_some hinsert).2 other
      have hkey : (SessionRuntime.newRuntime chat identity now).chatId = chat := rfl
      rw [hkey] at hfind
      by_cases hchat : chat = other
      · subst hchat
        exact .inr ⟨hnone, _, hfind.trans (if_pos rfl), rfl, rfl⟩
      · exact .inl (hfind.trans (if_neg hchat))
    · obtain ⟨-, rfl⟩ := Prod.mk.inj h
      exact .inl rfl

theorem runtimeChat_eq_ok {value chat : String} (h : runtimeChat value = .ok chat) :
    chat = strip value := by
  unfold runtimeChat at h
  split at h
  · cases h
  · split at h
    · cases h
    · exact (Except.ok.inj h).symm

/-- The chat of a child is its own strip. -/
theorem strip_birthChat (a : SpawnArgs) (v : BitVec 128) :
    strip (a.birthChat v) = a.birthChat v ∧ a.birthChat v ≠ "" := by
  unfold SpawnArgs.birthChat
  split
  · exact strip_newId (by decide) v
  · rename_i hne
    exact ⟨strip_strip _, hne⟩

end ChildDb

/-! ## 5.  What a history has settled -/

abbrev UsageHistory := List (UsageStep × UsageReply)

/-- The end of a generation of a child, with its usage if it ran. -/
abbrev Settlement := String × Nat × Option Amounts

def settlementOf : UsageReply → Option Settlement
  | .settled childId generation usage => some (childId, generation, usage)
  | .nothing | .raised _ => none

/-- The generations that have ended. -/
def settlements (h : UsageHistory) : List Settlement := h.filterMap fun e => settlementOf e.2

/-- A child gets a chat that no other child has, and other runs are not charged as generations of
children. -/
def OwnChats (_ : UsageHistory) (w : UsageWorld) : UsageStep → Prop
  | .spawn _ _ a u v _ => ∀ r ∈ w.db.children.rows, r.childChatId = a.birthChat v → r.childId = a.birthId u
  | .record _ runId _ uuid _ _ => ∀ childId g, SessionRuntime.stableRunId runId uuid ≠ rollupId childId g
  | _ => True

/-- The totals of the chats are the sums of their charges. -/
structure Books (db : ChildDb) : Prop where
  totals : ∀ chat r, db.accounts.registry.runtimes.find? chat = some r →
    ∀ key, amount r.budgetUsed key = db.total chat key
  hosted : ∀ c ∈ db.accounts.charges.rows,
    (db.accounts.registry.runtimes.find? c.chatId).isSome = true

/-- The chats of children and their parents have runtimes, and births are of children. -/
structure Housed (db : ChildDb) : Prop where
  chats : ∀ r ∈ db.children.rows, r.childChatId ≠ "" ∧
    (db.accounts.registry.runtimes.find? r.childChatId).isSome = true
  parents : ∀ r ∈ db.children.rows, ∃ chat, ChildDb.runtimeChat r.parentChatId = .ok chat ∧
    (db.accounts.registry.runtimes.find? chat).isSome = true
  births : ∀ chat rt, db.accounts.registry.runtimes.find? chat = some rt →
    ∀ parent, rt.creationSagaState = ChildDb.birthMarker parent →
      ∃ r ∈ db.children.rows, r.childChatId = chat

/-- A walk that has not failed stands on the trail of the chat it began with. -/
structure OnTrail (db : ChildDb) (start : String) (k : RollupWalk) : Prop where
  current : k.current = "" ∧ k.phase ≠ .charged ∨ db.Ancestor start k.current
  start : start ∈ k.visited ∨ start = k.current
  charged : k.phase = .charged → k.current ∈ k.visited
  closed : ∀ v ∈ k.visited, (k.phase = .charged → v ≠ k.current) →
    ∀ y, db.nextChat v = some y → y ∈ k.visited ∨ y = k.current

/-- A walk charges a generation that has ended. -/
structure WalkSound (settled : List Settlement) (db : ChildDb) (k : RollupWalk) : Prop where
  settled : (k.childId, k.generation, some k.usage) ∈ settled
  visited : ∀ v ∈ k.visited, db.Charged v k.childId k.generation k.usage
  trail : (∀ e, k.phase ≠ .failed e) → ∀ r, db.row k.childId = some r → OnTrail db r.childChatId k

/-- **The usage is rolled up.**  A generation whose rollup is complete is charged to every chat on its
trail, and to no other. -/
structure RolledUp (settled : List Settlement) (w : UsageWorld) : Prop where
  once : (settled.map fun e => (e.1, e.2.1)).Nodup
  ended : ∀ c g u, (c, g, u) ∈ settled → ∃ r, w.db.row c = some r ∧ g ≤ r.runGeneration ∧
    (g = r.runGeneration → r.status.terminal = true ∧ ∀ x, u = some x → r.usage = x)
  generations : ∀ r ∈ w.db.children.rows, 1 ≤ r.runGeneration
  pending : ∀ r ∈ w.db.children.rows, r.usageRollupState = .pending →
    (r.childId, r.runGeneration, some r.usage) ∈ settled
  charged : ∀ c g x r, (c, g, some x) ∈ settled → w.db.row c = some r →
    (r.runGeneration = g → r.usageRollupState = .complete) →
      ∀ a, w.db.Ancestor r.childChatId a → w.db.Charged a c g x
  sound : ∀ chat c g u, w.db.charge? chat (rollupId c g) = some u → ∃ x r a, (c, g, some x) ∈ settled ∧
    w.db.row c = some r ∧ w.db.Ancestor r.childChatId a ∧ ChildDb.runtimeChat a = .ok chat ∧
      u = cleanUsage (receiptUsage x)
  walks : ∀ k ∈ w.walks, WalkSound settled w.db k
  books : Books w.db
  housed : Housed w.db

/-! ## 6.  Rows that are rewritten -/

section Rewrites

variable {settled settled' : List Settlement} {w : UsageWorld} {db db' : ChildDb}
  {F : ChildRow → ChildRow}

theorem Books.rewritten (hb : Books db) (hF : db.Rewritten F db') : Books db' := by
  have htotal : db'.total = db.total := by
    funext chat key
    unfold ChildDb.total
    rw [hF.accounts]
  constructor
  · rw [htotal, hF.accounts]
    exact hb.totals
  · rw [hF.accounts]
    exact hb.hosted

theorem Housed.rewritten (hb : Housed db) (hF : db.Rewritten F db') : Housed db' := by
  refine ⟨fun r' hr' => ?_, fun r' hr' => ?_, fun chat rt hrt parent hbirth => ?_⟩
  · rw [hF.rows] at hr'
    obtain ⟨r, hr, rfl⟩ := List.mem_map.mp hr'
    rw [(hF.keeps r).2.1, hF.accounts]
    exact hb.chats r hr
  · rw [hF.rows] at hr'
    obtain ⟨r, hr, rfl⟩ := List.mem_map.mp hr'
    rw [(hF.keeps r).2.2, hF.accounts]
    exact hb.parents r hr
  · rw [hF.accounts] at hrt
    obtain ⟨r, hr, hchat⟩ := hb.births chat rt hrt parent hbirth
    exact ⟨F r, hF.rows ▸ List.mem_map_of_mem hr, (hF.keeps r).2.1.trans hchat⟩

theorem OnTrail.rewritten {start : String} {k : RollupWalk} (hk : OnTrail db start k)
    (hF : db.Rewritten F db') : OnTrail db' start k := by
  refine ⟨?_, hk.start, hk.charged, ?_⟩
  · rw [hF.ancestor_eq]
    exact hk.current
  · rw [hF.nextChat_eq]
    exact hk.closed

theorem WalkSound.rewritten {k : RollupWalk} (hk : WalkSound settled db k) (hF : db.Rewritten F db')
    (hmore : settled ⊆ settled') : WalkSound settled' db' k := by
  refine ⟨hmore hk.settled, ?_, fun hphase r' hr' => ?_⟩
  · rw [hF.charged_eq]
    exact hk.visited
  · rw [hF.row_eq] at hr'
    obtain ⟨r, hr, rfl⟩ := Option.map_eq_some_iff.mp hr'
    rw [(hF.keeps r).2.1]
    exact (hk.trail hphase r hr).rewritten hF

/-- **Rewritten rows**: what is left to show is about the rows themselves. -/
theorem RolledUp.rewritten (hw : RolledUp settled w) (hF : w.db.Rewritten F db)
    (hmore : settled ⊆ settled') (honce : (settled'.map fun e => (e.1, e.2.1)).Nodup)
    (hgen : ∀ r, r.runGeneration ≤ (F r).runGeneration)
    (hended : ∀ c g u r, (c, g, u) ∈ settled' → w.db.row c = some r → g ≤ (F r).runGeneration ∧
      (g = (F r).runGeneration → (F r).status.terminal = true ∧ ∀ x, u = some x → (F r).usage = x))
    (hrow : ∀ c g u, (c, g, u) ∈ settled' → (w.db.row c).isSome = true)
    (hpending : ∀ r ∈ w.db.children.rows, (F r).usageRollupState = .pending →
      (r.childId, (F r).runGeneration, some (F r).usage) ∈ settled')
    (hcharged : ∀ c g x r, (c, g, some x) ∈ settled' → w.db.row c = some r →
      ((F r).runGeneration = g → (F r).usageRollupState = .complete) →
        ∀ a, w.db.Ancestor r.childChatId a → w.db.Charged a c g x) :
    RolledUp settled' { w with db := db } := by
  refine ⟨honce, fun c g u he => ?_, fun r' hr' => ?_, fun r' hr' hstate => ?_,
    fun c g x r' he hr' hstate => ?_, fun chat c g u hcharge => ?_,
    fun k hk => (hw.walks k hk).rewritten hF hmore, hw.books.rewritten hF, hw.housed.rewritten hF⟩
  · obtain ⟨r, hr⟩ := Option.isSome_iff_exists.mp (hrow c g u he)
    refine ⟨F r, ?_, hended c g u r he hr⟩
    rw [hF.row_eq, hr]
    rfl
  · rw [hF.rows] at hr'
    obtain ⟨r, hr, rfl⟩ := List.mem_map.mp hr'
    exact le_trans (hw.generations r hr) (hgen r)
  · rw [hF.rows] at hr'
    obtain ⟨r, hr, rfl⟩ := List.mem_map.mp hr'
    rw [(hF.keeps r).1]
    exact hpending r hr hstate
  · rw [hF.row_eq] at hr'
    obtain ⟨r, hr, rfl⟩ := Option.map_eq_some_iff.mp hr'
    rw [(hF.keeps r).2.1, hF.ancestor_eq, hF.charged_eq]
    exact hcharged c g x r he hr hstate
  · rw [hF.charge?_eq] at hcharge
    obtain ⟨x, r, a, he, hr, hreach, hchat, hu⟩ := hw.sound chat c g u hcharge
    refine ⟨x, F r, a, hmore he, ?_, ?_, hchat, hu⟩
    · rw [hF.row_eq, hr]
      rfl
    · rw [(hF.keeps r).2.1, hF.ancestor_eq]
      exact hreach

/-- A rewrite that touches neither a generation nor its usage. -/
theorem RolledUp.untouched (hw : RolledUp settled w) (hF : w.db.Rewritten F db)
    (hsame : ∀ r, (F r).runGeneration = r.runGeneration ∧ (F r).usage = r.usage ∧
      (F r).usageRollupState = r.usageRollupState ∧
      (r.status.terminal = true → (F r).status.terminal = true)) :
    RolledUp settled { w with db := db } := by
  refine hw.rewritten hF (List.Subset.refl _) hw.once (fun r => (hsame r).1.ge) (fun c g u r he hr => ?_)
    (fun c g u he => ?_) (fun r hr hstate => ?_) (fun c g x r he hr hstate => ?_)
  · obtain ⟨r', hr', hle, hterminal⟩ := hw.ended c g u he
    obtain rfl := Option.some.inj (hr.symm.trans hr')
    obtain ⟨hgen, husage, -, hstatus⟩ := hsame r
    rw [hgen, husage]
    exact ⟨hle, fun heq => ⟨hstatus (hterminal heq).1, (hterminal heq).2⟩⟩
  · obtain ⟨r, hr, -⟩ := hw.ended c g u he
    exact Option.isSome_iff_exists.mpr ⟨r, hr⟩
  · obtain ⟨hgen, husage, hrollup, -⟩ := hsame r
    rw [hgen, husage]
    exact hw.pending r hr (hrollup ▸ hstate)
  · obtain ⟨hgen, -, hrollup, -⟩ := hsame r
    exact hw.charged c g x r he hr fun heq => hrollup ▸ hstate (hgen.trans heq)

/-- An update of rows that have not ended. -/
theorem RolledUp.update (hw : RolledUp settled w) {f : ChildRow → ChildRow} (childId : String)
    (cond : ChildRow → Bool) (hf : ∀ r, (f r).childId = r.childId ∧ (f r).childChatId = r.childChatId ∧
      (f r).parentChatId = r.parentChatId)
    (hsame : ∀ r, (f r).runGeneration = r.runGeneration ∧ (f r).usage = r.usage ∧
      (f r).usageRollupState = r.usageRollupState)
    (hopen : ∀ r, cond r = true → r.status.terminal = false) :
    RolledUp settled { w with db := (w.db.update childId cond f fun r => (hf r).1).2 } := by
  refine hw.untouched (ChildDb.rewritten_updated w.db childId cond hf) fun r => ?_
  split
  · rename_i hcond
    rw [Bool.and_eq_true] at hcond
    obtain ⟨hgen, husage, hrollup⟩ := hsame r
    exact ⟨hgen, husage, hrollup, fun hterminal => absurd (hterminal.symm.trans (hopen r hcond.2)) (by decide)⟩
  · exact ⟨rfl, rfl, rfl, id⟩

/-- The children and the accounts are what they were. -/
theorem RolledUp.same (hw : RolledUp settled w) (haccounts : db.accounts = w.db.accounts)
    (hchildren : db.children = w.db.children) : RolledUp settled { w with db := db } :=
  hw.untouched (F := id) ⟨haccounts, by rw [hchildren, List.map_id], fun _ => ⟨rfl, rfl, rfl⟩⟩
    fun _ => ⟨rfl, rfl, rfl, id⟩

/-- An update that finds no row. -/
theorem ChildDb.update_unmatched {childId : String} {cond : ChildRow → Bool} {f : ChildRow → ChildRow}
    {hf : ∀ r, (f r).childId = r.childId} (h : ∀ r, db.row childId = some r → cond r = false) :
    (db.update childId cond f hf).2.children = db.children := by
  refine Table.ext_rows ?_
  show db.children.rows.map _ = db.children.rows
  refine (List.map_congr_left fun r hr => ?_).trans (List.map_id _)
  by_cases hid : r.childId = childId
  · have hcond := h r (hid ▸ Table.find?_key_of_mem hr)
    simp [hcond]
  · simp [hid]

/-- **A generation ends**: its row, which had not ended, is rewritten, and the end is remembered. -/
theorem RolledUp.ending (hw : RolledUp settled w) {childId : String} {cond : ChildRow → Bool}
    {f : ChildRow → ChildRow} {r : ChildRow} {x : Option Amounts}
    (hf : ∀ r, (f r).childId = r.childId ∧ (f r).childChatId = r.childChatId ∧
      (f r).parentChatId = r.parentChatId)
    (haccounts : db.accounts = w.db.accounts)
    (hchildren : db.children = (w.db.update childId cond f fun r => (hf r).1).2.children)
    (hr : w.db.row childId = some r) (hcond : cond r = true) (hopen : r.status.terminal = false)
    (hgen : ∀ r, (f r).runGeneration = r.runGeneration) (hterminal : (f r).status.terminal = true)
    (hx : ∀ u, x = some u → (f r).usage = u ∧ (f r).usageRollupState = .pending)
    (hpending : (f r).usageRollupState = .pending → x = some (f r).usage) :
    RolledUp ((childId, r.runGeneration, x) :: settled) { w with db := db } := by
  have hF := ChildDb.rewritten_update childId cond hf haccounts hchildren
  -- the row is the only one that is rewritten
  have honly : ∀ {r'}, w.db.row r'.childId = some r' → (r'.childId = childId && cond r') = true →
      r' = r := by
    intro r' hr' hmatch
    rw [Bool.and_eq_true, decide_eq_true_eq] at hmatch
    rw [hmatch.1] at hr'
    exact Option.some.inj (hr'.symm.trans hr)
  have hkey : ∀ {c r'}, w.db.row c = some r' → r'.childId = c := fun h => Table.key_of_find? h
  have hmatch : (r.childId = childId && cond r) = true := by
    rw [hcond, hkey hr]
    simp
  -- the generation has not ended before
  have hfresh : ∀ u, (childId, r.runGeneration, u) ∉ settled := by
    intro u he
    obtain ⟨r', hr', -, hended⟩ := hw.ended _ _ u he
    obtain rfl := Option.some.inj (hr.symm.trans hr')
    exact absurd ((hended rfl).1.symm.trans hopen) (by decide)
  refine hw.rewritten hF (List.subset_cons_self _ _) ?_ (fun r' => ?_) (fun c g u r' he hr' => ?_)
    (fun c g u he => ?_) (fun r' hr' hstate => ?_) (fun c g u r' he hr' hstate => ?_)
  · rw [List.map_cons, List.nodup_cons]
    refine ⟨fun hmem => ?_, hw.once⟩
    obtain ⟨⟨c, g, u⟩, he, heq⟩ := List.mem_map.mp hmem
    simp only [Prod.mk.injEq] at heq
    obtain ⟨rfl, rfl⟩ := heq
    exact hfresh u he
  · split
    · exact (hgen r').ge
    · exact le_refl _
  · rcases List.mem_cons.mp he with heq | he
    · simp only [Prod.mk.injEq] at heq
      obtain ⟨rfl, rfl, rfl⟩ := heq
      obtain rfl := Option.some.inj (hr.symm.trans hr')
      rw [if_pos hmatch, hgen]
      exact ⟨le_refl _, fun _ => ⟨hterminal, fun y hy => (hx y hy).1⟩⟩
    · obtain ⟨r₀, hr₀, hle, hended⟩ := hw.ended c g u he
      obtain rfl := Option.some.inj (hr'.symm.trans hr₀)
      split
      · rename_i hmatch'
        obtain rfl := honly (hkey hr' ▸ hr') hmatch'
        rw [hgen]
        exact ⟨hle, fun heq => absurd ((hended heq).1.symm.trans hopen) (by decide)⟩
      · exact ⟨hle, hended⟩
  · rcases List.mem_cons.mp he with heq | he
    · obtain ⟨rfl, -⟩ := Prod.mk.inj heq
      rw [hr]
      rfl
    · obtain ⟨r₀, hr₀, -⟩ := hw.ended c g u he
      exact Option.isSome_iff_exists.mpr ⟨r₀, hr₀⟩
  · split at hstate
    · rename_i hmatch'
      obtain rfl := honly (Table.find?_key_of_mem hr') hmatch'
      rw [if_pos hmatch', hgen, hpending hstate, hkey hr]
      exact List.mem_cons_self
    · rename_i hmatch'
      rw [if_neg hmatch']
      exact List.mem_cons_of_mem _ (hw.pending r' hr' hstate)
  · rcases List.mem_cons.mp he with heq | hold
    · simp only [Prod.mk.injEq] at heq
      obtain ⟨rfl, rfl, hu⟩ := heq
      obtain rfl := Option.some.inj (hr.symm.trans hr')
      rw [if_pos hmatch] at hstate
      have hcomplete := hstate (hgen r)
      rw [(hx u hu.symm).2] at hcomplete
      cases hcomplete
    · refine hw.charged c g u r' hold hr' fun heq => ?_
      split at hstate
      · rename_i hmatch'
        obtain rfl := honly (hkey hr' ▸ hr') hmatch'
        obtain rfl := (hkey hr').symm.trans (hkey hr)
        exact absurd (heq ▸ hold) (hfresh _)
      · exact hstate heq

/-! ## 7.  The rows of children -/

theorem RolledUp.finish (hw : RolledUp settled w) {childId : String} {f : ChildDb.Finish}
    (settles : f.status.terminal = true) {u : BitVec 128} {now : ℚ} {x : Except SessionError Nat}
    (h : Txn.unitOfWork (ChildDb.finishTxn childId f u now) none w.db = (x, db)) :
    RolledUp ((settlementOf (UsageWorld.finishReply childId f.usage (w.db.row childId) x)).toList ++
      settled) { w with db := db } := by
  cases x with
  | error e =>
      rw [Txn.unitOfWork_error h]
      exact hw
  | ok changed =>
      obtain ⟨hchanged, hchildren, haccounts, -⟩ := ChildDb.finishTxn_ok (Txn.unitOfWork_ok.mp h).1
      by_cases hone : changed = 1
      · obtain ⟨r, hr, hrunning⟩ := (ChildDb.update_eq_one _ _ _ _ _).mp (hchanged.symm.trans hone)
        have hstatus : r.status = .running := by simpa [ChildDb.running] using hrunning
        rw [UsageWorld.finishReply, if_pos hone, hr]
        refine hw.ending (f := ChildDb.finishWrite f) (fun _ => ⟨rfl, rfl, rfl⟩) haccounts hchildren hr
          hrunning ?_ (fun _ => rfl) settles (fun _ hx => ⟨Option.some.inj hx, rfl⟩) fun _ => rfl
        rw [hstatus]
        rfl
      · rw [UsageWorld.finishReply, if_neg hone]
        refine hw.same haccounts (hchildren.trans (ChildDb.update_unmatched fun r hr => ?_))
        by_contra hrunning
        exact hone (hchanged.trans ((ChildDb.update_eq_one _ _ _ _ _).mpr
          ⟨r, hr, by simpa using hrunning⟩))

theorem RolledUp.cancel (hw : RolledUp settled w) {parentChatId childId : String}
    {x : Except SessionError (Option Nat)} (h : w.db.cancel parentChatId childId = (x, db)) :
    (∀ g, x = .ok (some g) → RolledUp ((childId, g, none) :: settled) { w with db := db }) ∧
      ((∀ g, x ≠ .ok (some g)) → RolledUp settled { w with db := db }) := by
  unfold ChildDb.cancel at h
  split at h
  · obtain ⟨rfl, rfl⟩ := Prod.mk.inj h
    exact ⟨fun g hg => (by cases hg), fun _ => hw⟩
  · rename_i r hfound
    obtain ⟨hr, -⟩ := Option.filter_eq_some_iff.mp hfound
    dsimp only at h
    obtain ⟨rfl, rfl⟩ := Prod.mk.inj h
    by_cases hone : (w.db.cancelQueued childId).1 = 1
    · obtain ⟨r', hr', hqueued⟩ := (ChildDb.update_eq_one _ _ _ _ _).mp hone
      obtain rfl := Option.some.inj (hr.symm.trans hr')
      have hstatus : r.status = .queued := by simpa using hqueued
      rw [if_pos hone]
      refine ⟨fun g hg => ?_, fun hno => absurd rfl (hno _)⟩
      obtain rfl := Option.some.inj (Except.ok.inj hg)
      refine hw.ending (f := ChildDb.cancelWrite) (fun _ => ⟨rfl, rfl, rfl⟩) rfl rfl hr hqueued ?_
        (fun _ => rfl) rfl (fun _ hx => (by cases hx)) fun hpending => (by cases hpending)
      rw [hstatus]
      rfl
    · rw [if_neg hone]
      refine ⟨fun g hg => (by cases hg), fun _ => ?_⟩
      refine hw.same rfl (ChildDb.update_unmatched fun r hr => ?_)
      by_contra hqueued
      exact hone ((ChildDb.update_eq_one _ _ _ _ _).mpr ⟨r, hr, by simpa using hqueued⟩)

/-- The next generation of a child whose usage is rolled up. -/
theorem RolledUp.reopened (hw : RolledUp settled w) {childId requestId message : String} {r : ChildRow}
    (hr : w.db.row childId = some r) (hcomplete : r.usageRollupState = .complete)
    (haccounts : db.accounts = w.db.accounts)
    (hchildren : db.children = (w.db.update childId (fun _ => true)
      (ChildDb.restartWrite requestId message)
      (ChildDb.childId_restartWrite requestId message)).2.children) :
    RolledUp settled { w with db := db } := by
  have hF := ChildDb.rewritten_update childId (fun _ => true)
    (f := ChildDb.restartWrite requestId message) (fun _ => ⟨rfl, rfl, rfl⟩) haccounts hchildren
  refine hw.rewritten hF (List.Subset.refl _) hw.once (fun r' => ?_) (fun c g u r' he hr' => ?_)
    (fun c g u he => ?_) (fun r' hr' hstate => ?_) (fun c g u r' he hr' hstate => ?_)
  · split
    · exact Nat.le_succ _
    · exact le_refl _
  · obtain ⟨r₀, hr₀, hle, hended⟩ := hw.ended c g u he
    obtain rfl := Option.some.inj (hr'.symm.trans hr₀)
    split
    · -- what has ended is behind the generation that opens
      exact ⟨Nat.le_succ_of_le hle, fun heq => absurd heq (Nat.lt_succ_of_le hle).ne⟩
    · exact ⟨hle, hended⟩
  · obtain ⟨r₀, hr₀, -⟩ := hw.ended c g u he
    exact Option.isSome_iff_exists.mpr ⟨r₀, hr₀⟩
  · split at hstate
    · cases hstate
    · rename_i hmatch
      rw [if_neg hmatch]
      exact hw.pending r' hr' hstate
  · refine hw.charged c g u r' he hr' fun heq => ?_
    split at hstate
    · rename_i hmatch
      rw [Bool.and_true, decide_eq_true_eq] at hmatch
      have hid : r'.childId = c := Table.key_of_find? hr'
      rw [← hid, hmatch] at hr'
      obtain rfl := Option.some.inj (hr.symm.trans hr')
      exact hcomplete
    · exact hstate heq

/-- **A restart** opens a generation when the usage of the last one is rolled up. -/
theorem RolledUp.restart (hw : RolledUp settled w) {cap : Capacity} {parentChatId childId : String}
    {expectedGeneration : Option Nat} {requestId message : String} {u : BitVec 128} {now : ℚ}
    {x : Except SessionError ChildRow}
    (h : w.db.restart cap parentChatId childId expectedGeneration requestId message u now = (x, db)) :
    RolledUp settled { w with db := db } := by
  have hunchanged : ∀ {y : Except SessionError ChildRow}, (y, w.db) = (x, db) →
      RolledUp settled { w with db := db } := by
    intro y heq
    obtain ⟨-, rfl⟩ := Prod.mk.inj heq
    exact hw
  unfold ChildDb.restart at h
  split at h
  · exact hunchanged h
  · rename_i r hfound
    obtain ⟨hr, -⟩ := Option.filter_eq_some_iff.mp hfound
    have hkey : r.childId = childId := Table.key_of_find? hr
    split at h
    · split at h <;> exact hunchanged h
    · split at h
      · exact hunchanged h
      · split at h
        · exact hunchanged h
        · split at h
          · exact hunchanged h
          · rename_i hstate
            have hcomplete : r.usageRollupState = .complete := by
              cases hrollup : r.usageRollupState with
              | pending => exact absurd hrollup hstate
              | complete => rfl
            cases x with
            | error e =>
                rw [Txn.unitOfWork_error h]
                exact hw
            | ok r' =>
                obtain ⟨latest, hlatest, ⟨rfl, -⟩ | ⟨-, -, -, hchildren, haccounts, -⟩⟩ :=
                  ChildDb.restartTxn_ok (Txn.unitOfWork_ok.mp h).1
                · exact hw
                · exact hw.reopened (hkey ▸ hr) hcomplete haccounts hchildren

/-! ## 8.  Walks -/

theorem RolledUp.withWalks (hw : RolledUp settled w) {walks : List RollupWalk}
    (hwalks : ∀ k ∈ walks, WalkSound settled w.db k) : RolledUp settled { w with walks := walks } :=
  ⟨hw.once, hw.ended, hw.generations, hw.pending, hw.charged, hw.sound, hwalks, hw.books, hw.housed⟩

theorem RolledUp.setWalk (hw : RolledUp settled w) (i : Nat) {k : RollupWalk}
    (hk : WalkSound settled w.db k) : RolledUp settled (w.setWalk i k) := by
  refine hw.withWalks fun k' hk' => ?_
  rcases List.mem_or_eq_of_mem_set hk' with hk' | rfl
  · exact hw.walks k' hk'
  · exact hk

theorem RolledUp.dropWalk (hw : RolledUp settled w) (i : Nat) :
    RolledUp settled { w with walks := w.walks.eraseIdx i } :=
  hw.withWalks fun k hk => hw.walks k (List.mem_of_mem_eraseIdx hk)

/-- A walk begins with the usage that is pending. -/
theorem RolledUp.rollup (hw : RolledUp settled w) (childId : String) :
    RolledUp settled (w.rollup childId) := by
  unfold UsageWorld.rollup
  split
  · exact hw
  · rename_i r hr
    split
    · exact hw
    · rename_i hpending
      refine hw.withWalks fun k hk => ?_
      rcases List.mem_append.mp hk with hk | hk
      · exact hw.walks k hk
      · obtain rfl := List.mem_singleton.mp hk
        have hmem := Table.mem_of_find? hr
        have hkey : r.childId = childId := Table.key_of_find? hr
        have hgen : max 1 r.runGeneration = r.runGeneration := max_eq_right (hw.generations r hmem)
        refine ⟨?_, fun v hv => (by cases hv), fun _ r' hr' => ?_⟩
        · rw [hgen, ← hkey]
          exact hw.pending r hmem (not_not.mp hpending)
        · obtain rfl := Option.some.inj (hr.symm.trans hr')
          exact ⟨.inr .refl, .inr rfl, fun h => (by cases h), fun v hv => (by cases hv)⟩

/-- A walk reads the chat above. -/
theorem WalkSound.owner {k : RollupWalk} (hk : WalkSound settled db k) (hphase : k.phase = .charged) :
    WalkSound settled db { k with current := db.parentOf k.current, phase := .walking } := by
  refine ⟨hk.settled, hk.visited, fun _ r hr => ?_⟩
  have htrail := hk.trail (fun e he => by rw [hphase] at he; cases he) r hr
  have hcurrent := htrail.charged hphase
  refine ⟨?_, .inl ?_, fun h => (by cases h), fun v hv _ y hy => ?_⟩
  · by_cases hparent : db.parentOf k.current = ""
    · exact .inl ⟨hparent, fun h => (by cases h)⟩
    · refine .inr ((htrail.current.resolve_left fun h => h.2 hphase).tail ?_)
      rw [ChildDb.nextChat, if_neg hparent]
  · exact htrail.start.elim id fun heq => heq ▸ hcurrent
  · by_cases hv' : v = k.current
    · rw [hv', ChildDb.nextChat] at hy
      split at hy
      · cases hy
      · exact .inr (Option.some.inj hy).symm
    · exact .inl ((htrail.closed v hv (fun _ => hv') y hy).elim id fun heq => heq ▸ hcurrent)

/-- A charge for a generation of a child is one of a chat on its trail. -/
theorem RolledUp.newCharge (hw : RolledUp settled w) {chat run : String} {usage : Amounts}
    (hc : w.db.NewCharge chat run usage db)
    (hsound : ∀ c g, run = rollupId c g → ∃ x r a, (c, g, some x) ∈ settled ∧ w.db.row c = some r ∧
      w.db.Ancestor r.childChatId a ∧ ChildDb.runtimeChat a = .ok chat ∧
        usage = cleanUsage (receiptUsage x)) :
    RolledUp settled { w with db := db } := by
  have hrow : db.row = w.db.row := by
    funext c
    unfold ChildDb.row
    rw [hc.children]
  have hnext : db.nextChat = w.db.nextChat := by
    funext c
    unfold ChildDb.nextChat ChildDb.parentOf ChildDb.owner
    rw [hc.children]
  have hancestor : db.Ancestor = w.db.Ancestor := by
    funext c
    unfold ChildDb.Ancestor
    rw [hnext]
  obtain ⟨row, row', hfound, hused, hsaga, hfind⟩ := hc.runtime
  -- who had a runtime has one
  have hsome : ∀ other, (w.db.accounts.registry.runtimes.find? other).isSome = true →
      (db.accounts.registry.runtimes.find? other).isSome = true := by
    intro other hother
    rw [hfind]
    split
    · rfl
    · exact hother
  refine ⟨hw.once, ?_, ?_, ?_, ?_, ?_, fun k hk => ?_, ⟨?_, ?_⟩, ⟨?_, ?_, ?_⟩⟩
  · rw [hrow]
    exact hw.ended
  · rw [hc.children]
    exact hw.generations
  · rw [hc.children]
    exact hw.pending
  · rw [hrow, hancestor]
    exact fun c g x r he hr hstate a ha => hc.charged (hw.charged c g x r he hr hstate a ha)
  · intro chat' c g u hcharge
    rw [hrow, hancestor]
    rw [hc.charge?_eq] at hcharge
    split at hcharge
    · rename_i heq
      obtain ⟨rfl, hrun⟩ := heq
      obtain ⟨x, r, a, he, hr, hreach, hchat, husage⟩ := hsound c g hrun
      exact ⟨x, r, a, he, hr, hreach, hchat, (Option.some.inj hcharge).symm.trans husage⟩
    · exact hw.sound chat' c g u hcharge
  · have hk := hw.walks k hk
    refine ⟨hk.settled, fun v hv => hc.charged (hk.visited v hv), ?_⟩
    rw [hrow]
    intro hphase r hr
    have htrail := hk.trail hphase r hr
    exact ⟨hancestor ▸ htrail.current, htrail.start, htrail.charged, hnext ▸ htrail.closed⟩
  · intro other r hr key
    rw [hfind] at hr
    rw [hc.total_eq]
    split at hr
    · rename_i heq
      subst heq
      obtain rfl := Option.some.inj hr
      obtain ⟨c, -, -, rfl, -⟩ := hc.charge
      rw [if_pos rfl, hused, SessionRuntime.amount_addUsage (hc.wf), hw.books.totals _ _ hfound key]
    · rename_i heq
      rw [if_neg heq, add_zero]
      exact hw.books.totals other r hr key
  · obtain ⟨c, hchat, -, -, hrows⟩ := hc.charge
    intro c' hc'
    rw [hrows] at hc'
    rcases List.mem_append.mp hc' with hc' | hc'
    · exact hsome _ (hw.books.hosted c' hc')
    · obtain rfl := List.mem_singleton.mp hc'
      rw [hchat, hfind, if_pos rfl]
      rfl
  · rw [hc.children]
    exact fun r hr => ⟨(hw.housed.chats r hr).1, hsome _ (hw.housed.chats r hr).2⟩
  · rw [hc.children]
    intro r hr
    obtain ⟨parent, hparent, hhas⟩ := hw.housed.parents r hr
    exact ⟨parent, hparent, hsome _ hhas⟩
  · rw [hc.children]
    intro other rt hrt parent hbirth
    rw [hfind] at hrt
    split at hrt
    · rename_i heq
      subst heq
      obtain rfl := Option.some.inj hrt
      exact hw.housed.births _ row hfound parent (hsaga.symm.trans hbirth)
    · exact hw.housed.births other rt hrt parent hbirth

/-- A walk that has failed keeps what it has charged. -/
theorem WalkSound.fail {k : RollupWalk} (hk : WalkSound settled db k) (error : String) :
    WalkSound settled db { k with phase := .failed error } :=
  ⟨hk.settled, hk.visited, fun hphase => absurd rfl (hphase error)⟩

/-- **A walk charges** the chat it stands at. -/
theorem RolledUp.charge (hw : RolledUp settled w) {k : RollupWalk} (hmem : k ∈ w.walks)
    (hphase : k.phase = .walking) (hdone : ¬ k.done) (i : Nat) (uuid eventId : String) (now : ℚ) :
    RolledUp settled (w.charge i k uuid eventId now) := by
  have hk := hw.walks k hmem
  have hcurrent : k.current ≠ "" := fun h => hdone (.inl h)
  obtain ⟨r₀, hr₀, -⟩ := hw.ended _ _ _ hk.settled
  have htrail := hk.trail (fun e he => by rw [hphase] at he; cases he) r₀ hr₀
  have hreach := htrail.current.resolve_left fun h => hcurrent h.1
  unfold UsageWorld.charge
  cases hrecord : w.db.recordRunUsage k.current (rollupId k.childId k.generation) k.usage uuid eventId
    now with
  | mk reply db =>
      have hcases := ChildDb.recordRunUsage_cases hrecord
      rw [stableRunId_rollupId] at hcases
      have hdb : RolledUp settled { w with db := db } ∧ (∀ row, reply = .recorded row →
          db.Charged k.current k.childId k.generation k.usage) := by
        rcases hcases with ⟨rfl, hrecorded⟩ | ⟨chat, hchat, hc⟩
        · exact ⟨hw, hrecorded⟩
        · refine ⟨hw.newCharge hc fun c g hrun => ?_, fun row _ => ⟨chat, hchat, ?_⟩⟩
          · obtain ⟨rfl, rfl⟩ := rollupId_injective hrun
            exact ⟨k.usage, r₀, k.current, hk.settled, hr₀, hreach, hchat, rfl⟩
          · rw [hc.charge?_eq, if_pos ⟨rfl, rfl⟩]
      obtain ⟨hw', hcharged⟩ := hdb
      have hk' := hw'.walks k hmem
      cases reply with
      | recorded row =>
          refine hw'.setWalk i ⟨hk'.settled, fun v hv => ?_, fun _ r hr => ?_⟩
          · rcases List.mem_cons.mp hv with rfl | hv
            · exact hcharged row rfl
            · exact hk'.visited v hv
          · have htrail := hk'.trail (fun e he => by rw [hphase] at he; cases he) r hr
            refine ⟨.inr (htrail.current.resolve_left fun h => hcurrent h.1), .inl ?_,
              fun _ => List.mem_cons_self, fun v hv hne y hy => .inl ?_⟩
            · exact List.mem_cons.mpr htrail.start.symm
            · have hv := (List.mem_cons.mp hv).resolve_left (hne rfl)
              have hy := htrail.closed v hv (fun h => by rw [hphase] at h; cases h) y hy
              exact List.mem_cons.mpr hy.symm
      | _ => exact hw'.setWalk i (hk'.fail _)

/-- A walk that is done has charged the whole trail. -/
theorem WalkSound.charged_of_done {k : RollupWalk} (hk : WalkSound settled db k)
    (hphase : k.phase = .walking) (hdone : k.done) {r : ChildRow} (hr : db.row k.childId = some r)
    (hchat : r.childChatId ≠ "") {a : String} (ha : db.Ancestor r.childChatId a) :
    db.Charged a k.childId k.generation k.usage := by
  have htrail := hk.trail (fun e he => by rw [hphase] at he; cases he) r hr
  refine hk.visited a (Trail.mem_of_closed ?_ (fun v hv y hy => ?_) ha)
  · rcases htrail.start with hstart | hstart
    · exact hstart
    · exact hstart ▸ hdone.resolve_left fun h => hchat (hstart.trans h)
  · rcases htrail.closed v hv (fun h => by rw [hphase] at h; cases h) y hy with hy' | rfl
    · exact hy'
    · refine hdone.resolve_left fun hempty => ?_
      rw [ChildDb.nextChat] at hy
      split at hy
      · cases hy
      · rename_i hparent
        exact hparent ((Option.some.inj hy).trans hempty)

/-- **A walk ends**: complete if it is done, and pending if it has failed. -/
theorem RolledUp.settle (hw : RolledUp settled w) {k : RollupWalk} (hmem : k ∈ w.walks) (i : Nat) :
    RolledUp settled (w.settle i k) := by
  have hk := hw.walks k hmem
  unfold UsageWorld.settle
  split
  · rename_i error hphase
    refine RolledUp.dropWalk (w := ⟨_, w.walks⟩) ?_ i
    have hF := ChildDb.rewritten_updated w.db k.childId (fun r => r.runGeneration = k.generation)
      (f := UsageWorld.failedWrite error) fun _ => ⟨rfl, rfl, rfl⟩
    refine hw.rewritten hF (List.Subset.refl _) hw.once (fun r => ?_) (fun c g u r he hr => ?_)
      (fun c g u he => ?_) (fun r hr hstate => ?_) (fun c g u r he hr hstate => ?_)
    · split <;> exact le_refl _
    · obtain ⟨r₀, hr₀, hended⟩ := hw.ended c g u he
      obtain rfl := Option.some.inj (hr.symm.trans hr₀)
      split <;> exact hended
    · obtain ⟨r₀, hr₀, -⟩ := hw.ended c g u he
      exact Option.isSome_iff_exists.mpr ⟨r₀, hr₀⟩
    · split
      · -- the row of the walk is pending with the usage that the walk has charged
        rename_i hmatch
        rw [Bool.and_eq_true, decide_eq_true_eq, decide_eq_true_eq] at hmatch
        obtain ⟨r₀, hr₀, -, hended⟩ := hw.ended _ _ _ hk.settled
        have hrow := Table.find?_key_of_mem hr
        rw [hmatch.1] at hrow
        obtain rfl := Option.some.inj (hrow.symm.trans hr₀)
        show (r.childId, r.runGeneration, some r.usage) ∈ settled
        rw [hmatch.1, hmatch.2, (hended hmatch.2.symm).2 _ rfl]
        exact hk.settled
      · rename_i hmatch
        rw [if_neg hmatch] at hstate
        exact hw.pending r hr hstate
    · refine hw.charged c g u r he hr fun heq => ?_
      split at hstate
      · exact absurd (hstate heq) (by simp [UsageWorld.failedWrite])
      · exact hstate heq
  · rename_i hphase
    split
    · rename_i hdone
      refine RolledUp.dropWalk (w := ⟨_, w.walks⟩) ?_ i
      have hF := ChildDb.rewritten_updated w.db k.childId
        (fun r => r.runGeneration = k.generation && r.usageRollupState = .pending)
        (f := UsageWorld.completeWrite) fun _ => ⟨rfl, rfl, rfl⟩
      refine hw.rewritten hF (List.Subset.refl _) hw.once (fun r => ?_) (fun c g u r he hr => ?_)
        (fun c g u he => ?_) (fun r hr hstate => ?_) (fun c g u r he hr hstate => ?_)
      · split <;> exact le_refl _
      · obtain ⟨r₀, hr₀, hended⟩ := hw.ended c g u he
        obtain rfl := Option.some.inj (hr.symm.trans hr₀)
        split <;> exact hended
      · obtain ⟨r₀, hr₀, -⟩ := hw.ended c g u he
        exact Option.isSome_iff_exists.mpr ⟨r₀, hr₀⟩
      · split at hstate
        · cases hstate
        · rename_i hmatch
          rw [if_neg hmatch]
          exact hw.pending r hr hstate
      · intro a ha
        split at hstate
        · rename_i hmatch
          rw [Bool.and_eq_true, Bool.and_eq_true, decide_eq_true_eq, decide_eq_true_eq] at hmatch
          obtain ⟨hid, hgen, -⟩ := hmatch
          have hkey : r.childId = c := Table.key_of_find? hr
          by_cases heq : r.runGeneration = g
          · -- the generation of the walk: the walk has charged its usage
            have hck : c = k.childId := hkey.symm.trans hid
            have hgk : g = k.generation := heq.symm.trans hgen
            subst hck hgk
            obtain ⟨r₀, hr₀, -, hended⟩ := hw.ended _ _ _ hk.settled
            obtain ⟨r₁, hr₁, -, hended'⟩ := hw.ended _ _ _ he
            obtain rfl := Option.some.inj (hr.symm.trans hr₀)
            obtain rfl := Option.some.inj (hr.symm.trans hr₁)
            obtain rfl := ((hended heq.symm).2 _ rfl).symm.trans ((hended' heq.symm).2 _ rfl)
            exact hk.charged_of_done hphase hdone hr
              (hw.housed.chats r (Table.mem_of_find? hr)).1 ha
          · exact hw.charged c g u r he hr (fun h => absurd h heq) a ha
        · exact hw.charged c g u r he hr hstate a ha
    · exact hw
  · exact hw

/-! ## 9.  Births -/

/-- A chat without a runtime has been charged nothing. -/
theorem Books.total_eq_zero (hb : Books db) {chat : String}
    (hnone : db.accounts.registry.runtimes.find? chat = none) (key : String) : db.total chat key = 0 := by
  have hnil : (db.accounts.charges.rows.filter fun c => c.chatId = chat) = [] := by
    refine List.filter_eq_nil_iff.mpr fun c hc heq => ?_
    have hsome := hb.hosted c hc
    rw [show c.chatId = chat by simpa using heq, hnone] at hsome
    cases hsome
  unfold ChildDb.total
  rw [hnil]
  rfl

/-- Runtimes that are added keep the books: they are unused. -/
theorem Books.opened (hb : Books db) (hcharges : db'.accounts.charges = db.accounts.charges)
    (hfind : ∀ chat, db'.accounts.registry.runtimes.find? chat =
        db.accounts.registry.runtimes.find? chat ∨
      db.accounts.registry.runtimes.find? chat = none ∧
        ∃ r, db'.accounts.registry.runtimes.find? chat = some r ∧ r.budgetUsed = []) : Books db' := by
  have htotal : db'.total = db.total := by
    funext chat key
    unfold ChildDb.total
    rw [hcharges]
  refine ⟨fun chat r hr key => ?_, fun c hc => ?_⟩
  · rw [htotal]
    rcases hfind chat with heq | ⟨hnone, r', hr', hused⟩
    · exact hb.totals chat r (heq ▸ hr) key
    · obtain rfl := Option.some.inj (hr.symm.trans hr')
      rw [hb.total_eq_zero hnone, hused]
      rfl
  · rw [hcharges] at hc
    rcases hfind c.chatId with heq | ⟨-, r', hr', -⟩
    · rw [heq]
      exact hb.hosted c hc
    · rw [hr']
      rfl

/-- A chat that had a runtime has one. -/
theorem ChildDb.Hosted.isSome (hh : db.Hosted db') {chat : String}
    (hsome : (db.accounts.registry.runtimes.find? chat).isSome = true) :
    (db'.accounts.registry.runtimes.find? chat).isSome = true := by
  rcases hh chat with heq | ⟨-, r, hr, -⟩
  · rw [heq]
    exact hsome
  · rw [hr]
    rfl

/-- The runtime of a parent is opened. -/
theorem RolledUp.hosted (hw : RolledUp settled w) {runtimes : SessionRuntime.RuntimeTable}
    (hh : w.db.Hosted { w.db with accounts.registry.runtimes := runtimes }) :
    RolledUp settled { w with db := { w.db with accounts.registry.runtimes := runtimes } } := by
  refine ⟨hw.once, hw.ended, hw.generations, hw.pending, hw.charged, hw.sound, fun k hk => ?_,
    hw.books.opened rfl fun chat => ?_, ⟨fun r hr => ?_, fun r hr => ?_, fun chat rt hrt parent hbirth => ?_⟩⟩
  · have hk := hw.walks k hk
    refine ⟨hk.settled, hk.visited, fun hphase r hr => ?_⟩
    obtain ⟨hcurrent, hstart, hcharged, hclosed⟩ := hk.trail hphase r hr
    exact ⟨hcurrent, hstart, hcharged, hclosed⟩
  · rcases hh chat with heq | ⟨hnone, r, hr, hused, -⟩
    · exact .inl heq
    · exact .inr ⟨hnone, r, hr, hused⟩
  · exact ⟨(hw.housed.chats r hr).1, hh.isSome (hw.housed.chats r hr).2⟩
  · obtain ⟨chat, hchat, hsome⟩ := hw.housed.parents r hr
    exact ⟨chat, hchat, hh.isSome hsome⟩
  · rcases hh chat with heq | ⟨-, r, hr, -, hsaga⟩
    · exact hw.housed.births chat rt (heq ▸ hrt) parent hbirth
    · obtain rfl := Option.some.inj (hrt.symm.trans hr)
      exact absurd (hsaga.symm.trans hbirth) (birthMarker_ne_complete parent)

/-- The chat of a child that is born had no runtime. -/
theorem RolledUp.unhoused (hw : RolledUp settled w) {a : ChildDb.SpawnArgs} {u v : BitVec 128}
    {row : ChildRow} (hborn : ChildDb.Born a u v w.db row db)
    (hown : ∀ r ∈ w.db.children.rows, r.childChatId = a.birthChat v → r.childId = a.birthId u) :
    w.db.accounts.registry.runtimes.find? (a.birthChat v) = none := by
  cases hfound : w.db.accounts.registry.runtimes.find? (a.birthChat v) with
  | none => rfl
  | some rt =>
      -- the runtime is of a birth, so the chat is of a child
      obtain ⟨r, hr, hchat⟩ := hw.housed.births _ rt hfound _ (hborn.owned rt hfound)
      have hrow : w.db.row r.childId = some r := Table.find?_key_of_mem hr
      rw [hown r hr hchat, hborn.fresh] at hrow
      cases hrow

/-- Nobody has a chat without a runtime. -/
theorem Housed.childChat_ne (hh : Housed db) {chat : String}
    (hnone : db.accounts.registry.runtimes.find? chat = none) {r : ChildRow}
    (hr : r ∈ db.children.rows) : r.childChatId ≠ chat := by
  intro heq
  have hsome := (hh.chats r hr).2
  rw [heq, hnone] at hsome
  cases hsome

/-- Nobody is below a chat without a runtime. -/
theorem Housed.nextChat_ne (hh : Housed db) {chat : String}
    (hnone : db.accounts.registry.runtimes.find? chat = none)
    (hchat : strip chat = chat ∧ chat ≠ "") (z : String) : db.nextChat z ≠ some chat := by
  intro hz
  unfold ChildDb.nextChat at hz
  split at hz
  · cases hz
  · have hparent := Option.some.inj hz
    unfold ChildDb.parentOf at hparent
    cases howner : db.owner z with
    | none =>
        rw [howner] at hparent
        exact hchat.2 hparent.symm
    | some r =>
        rw [howner, Option.elim_some] at hparent
        obtain ⟨chat', hchat', hsome⟩ := hh.parents r (List.mem_of_find?_eq_some howner)
        rw [ChildDb.runtimeChat_eq_ok hchat', hparent, hchat.1, hnone] at hsome
        cases hsome

/-- A birth leaves the other chats where they are. -/
theorem ChildDb.Born.nextChat_eq {a : ChildDb.SpawnArgs} {u v : BitVec 128} {row : ChildRow}
    (hborn : ChildDb.Born a u v db row db') (hrow : row.childChatId = a.birthChat v) {z : String}
    (hz : z ≠ a.birthChat v) : db'.nextChat z = db.nextChat z := by
  have howner : db'.owner z = db.owner z := by
    unfold ChildDb.owner
    rw [hborn.children, List.find?_append]
    have hnew : ([row].find? fun r => decide (r.childChatId = z)) = none := by
      simpa [hrow] using Ne.symm hz
    rw [hnew, Option.or_none]
  unfold ChildDb.nextChat ChildDb.parentOf
  rw [howner]

/-- **A birth** adds a chat that nobody has been charged with. -/
theorem RolledUp.born (hw : RolledUp settled w) {a : ChildDb.SpawnArgs} {u v : BitVec 128}
    {row : ChildRow} (hborn : ChildDb.Born a u v w.db row db)
    (hown : ∀ r ∈ w.db.children.rows, r.childChatId = a.birthChat v → r.childId = a.birthId u)
    {chat : String} (hchat : ChildDb.runtimeChat a.parentChatId = .ok chat)
    (hparent : (w.db.accounts.registry.runtimes.find? chat).isSome = true) :
    RolledUp settled { w with db := db } := by
  have hnone := hw.unhoused hborn hown
  obtain ⟨depth, rfl⟩ := hborn.born
  obtain ⟨rt, hrt, hsaga, hrt'⟩ := hborn.runtime
  have hused : rt.budgetUsed = [] := hrt'.resolve_right fun h => by rw [hnone] at h; cases h
  have hne : ∀ r ∈ w.db.children.rows, r.childChatId ≠ a.birthChat v :=
    fun r hr => hw.housed.childChat_ne hnone hr
  have hsame : ∀ z, z ≠ a.birthChat v → db.nextChat z = w.db.nextChat z :=
    fun z hz => hborn.nextChat_eq rfl hz
  have hnew : ∀ z, w.db.nextChat z ≠ some (a.birthChat v) :=
    hw.housed.nextChat_ne hnone (ChildDb.strip_birthChat a v)
  have hreach : ∀ {start b}, start ≠ a.birthChat v → (db.Ancestor start b ↔ w.db.Ancestor start b) :=
    fun hstart => Trail.reaches_congr hsame hnew hstart
  have hrow : ∀ c, (w.db.row c).isSome = true → db.row c = w.db.row c := by
    intro c hc
    have hfind := Table.find?_of_rows_append hborn.children c
    refine hfind.trans (if_neg fun heq => ?_)
    rw [← heq, show (ChildDb.newChild a (a.birthId u) (a.birthChat v) depth).childId = a.birthId u from rfl,
      hborn.fresh] at hc
    cases hc
  have hrow' : ∀ c g x, (c, g, x) ∈ settled → db.row c = w.db.row c := by
    intro c g x he
    obtain ⟨r, hr, -⟩ := hw.ended c g x he
    exact hrow c (by rw [hr]; rfl)
  have hcharge : db.charge? = w.db.charge? := by
    funext c run
    unfold ChildDb.charge?
    rw [hborn.charges]
  have hcharged : db.Charged = w.db.Charged := by
    funext b c g x
    unfold ChildDb.Charged
    rw [hcharge]
  have hfind : ∀ c, db.accounts.registry.runtimes.find? c = w.db.accounts.registry.runtimes.find? c ∨
      w.db.accounts.registry.runtimes.find? c = none ∧
        ∃ r, db.accounts.registry.runtimes.find? c = some r ∧ r.budgetUsed = [] := by
    intro c
    by_cases hc : c = a.birthChat v
    · exact .inr ⟨hc ▸ hnone, rt, hc ▸ hrt, hused⟩
    · exact .inl (hborn.others c hc)
  have hsome : ∀ c, (w.db.accounts.registry.runtimes.find? c).isSome = true →
      (db.accounts.registry.runtimes.find? c).isSome = true := by
    intro c hc
    rcases hfind c with heq | ⟨hno, -⟩
    · rw [heq]
      exact hc
    · rw [hno] at hc
      cases hc
  have hmem : ∀ {r}, r ∈ db.children.rows → r ∈ w.db.children.rows ∨
      r = ChildDb.newChild a (a.birthId u) (a.birthChat v) depth := by
    intro r hr
    rw [hborn.children] at hr
    exact (List.mem_append.mp hr).imp_right fun hr => List.mem_singleton.mp hr
  refine ⟨hw.once, fun c g x he => ?_, fun r hr => ?_, fun r hr hstate => ?_,
    fun c g x r he hr hstate b hb => ?_, fun c' c g x hx => ?_, fun k hk => ?_,
    hw.books.opened hborn.charges hfind, ⟨fun r hr => ?_, fun r hr => ?_, fun c rt' hrt' p hp => ?_⟩⟩
  · show ∃ r, db.row c = some r ∧ _
    rw [hrow' c g x he]
    exact hw.ended c g x he
  · rcases hmem hr with hr | rfl
    · exact hw.generations r hr
    · exact le_refl 1
  · rcases hmem hr with hr | rfl
    · exact hw.pending r hr hstate
    · cases hstate
  · rw [hrow' c g (some x) he] at hr
    rw [hcharged]
    exact hw.charged c g x r he hr hstate b ((hreach (hne r (Table.mem_of_find? hr))).mp hb)
  · rw [hcharge] at hx
    obtain ⟨y, r, b, he, hr, hb, hb', hy⟩ := hw.sound c' c g x hx
    refine ⟨y, r, b, he, ?_, (hreach (hne r (Table.mem_of_find? hr))).mpr hb, hb', hy⟩
    show db.row c = some r
    rw [hrow' c g _ he]
    exact hr
  · have hk := hw.walks k hk
    refine ⟨hk.settled, hcharged ▸ hk.visited, fun hphase r hr => ?_⟩
    rw [hrow' _ _ _ hk.settled] at hr
    obtain ⟨hcurrent, hstart, hch, hclosed⟩ := hk.trail hphase r hr
    refine ⟨hcurrent.imp_right (hreach (hne r (Table.mem_of_find? hr))).mpr, hstart, hch,
      fun z hz hzne y hy => ?_⟩
    -- a chat that has been visited has been charged, so it is not the new one
    have hzchat : z ≠ a.birthChat v := by
      rintro rfl
      obtain ⟨c, hc, hcharge'⟩ := hk.visited _ hz
      obtain ⟨charge, hfound, -⟩ := Option.map_eq_some_iff.mp hcharge'
      have hhosted := hw.books.hosted charge (Table.mem_of_find? hfound)
      have hkey := Table.key_of_find? hfound
      rw [(Prod.mk.inj hkey).1, ChildDb.runtimeChat_eq_ok hc, (ChildDb.strip_birthChat a v).1, hnone] at hhosted
      cases hhosted
    exact hclosed z hz hzne y (hsame z hzchat ▸ hy)
  · rcases hmem hr with hr | rfl
    · exact ⟨(hw.housed.chats r hr).1, hsome _ (hw.housed.chats r hr).2⟩
    · refine ⟨(ChildDb.strip_birthChat a v).2, ?_⟩
      show (db.accounts.registry.runtimes.find? (a.birthChat v)).isSome = true
      rw [hrt]
      rfl
  · rcases hmem hr with hr | rfl
    · obtain ⟨c, hc, hsome'⟩ := hw.housed.parents r hr
      exact ⟨c, hc, hsome c hsome'⟩
    · exact ⟨chat, hchat, hsome chat hparent⟩
  · by_cases hc : c = a.birthChat v
    · refine ⟨ChildDb.newChild a (a.birthId u) (a.birthChat v) depth, ?_, hc.symm⟩
      show ChildDb.newChild a (a.birthId u) (a.birthChat v) depth ∈ db.children.rows
      rw [hborn.children]
      exact List.mem_append_right _ (List.mem_singleton_self _)
    · obtain ⟨r, hr, hrc⟩ := hw.housed.births c rt' (hborn.others c hc ▸ hrt') p hp
      refine ⟨r, ?_, hrc⟩
      show r ∈ db.children.rows
      rw [hborn.children]
      exact List.mem_append_left _ hr

/-! ## 10.  Every step rolls up -/

theorem RolledUp.spawn (hw : RolledUp settled w) {cap : Capacity} {identity : RuntimeIdentity}
    {a : ChildDb.SpawnArgs} {u v : BitVec 128} {now : ℚ} {x : Except SessionError ChildRow}
    (hown : ∀ r ∈ w.db.children.rows, r.childChatId = a.birthChat v → r.childId = a.birthId u)
    (h : w.db.spawn cap identity a u v now = (x, db)) : RolledUp settled { w with db := db } := by
  rcases ChildDb.spawn_cases h with rfl | ⟨chat, parent, runtimes, hchat, hensure, hborn⟩
  · exact hw
  · have hhosted := hw.hosted (ChildDb.hosted_ensureRuntime hensure)
    rcases hborn with rfl | ⟨⟨record, rfl⟩, row, hborn⟩
    · exact hhosted
    · refine hhosted.born hborn hown hchat ?_
      show (runtimes.find? chat).isSome = true
      rw [SessionRuntime.ensureRuntime_eq_ok hensure]
      rfl

theorem RolledUp.record (hw : RolledUp settled w) {chatId runId uuid eventId : String}
    {receipt : Amounts} {now : ℚ} {reply : RuntimeReply}
    (hown : ∀ c g, SessionRuntime.stableRunId runId uuid ≠ rollupId c g)
    (h : w.db.recordRunUsage chatId runId receipt uuid eventId now = (reply, db)) :
    RolledUp settled { w with db := db } := by
  rcases ChildDb.recordRunUsage_cases h with ⟨rfl, -⟩ | ⟨chat, -, hc⟩
  · exact hw
  · exact hw.newCharge hc fun c g hrun => absurd hrun (hown c g)

theorem RolledUp.walkStep (hw : RolledUp settled w) {k : RollupWalk} (hmem : k ∈ w.walks) (i : Nat)
    (l : UsageStep) : RolledUp settled (w.walkStep l i k) := by
  unfold UsageWorld.walkStep
  split
  · rename_i hphase
    split
    · exact hw
    · rename_i hdone
      exact hw.charge hmem hphase hdone i _ _ _
  · rename_i hphase
    exact hw.setWalk i ((hw.walks k hmem).owner hphase)
  · exact hw.setWalk i ((hw.walks k hmem).fail _)
  · exact hw.setWalk i ((hw.walks k hmem).fail _)
  · exact hw.settle hmem i
  · exact hw

theorem settlements_cons (l : UsageStep) (reply : UsageReply) (h : UsageHistory) :
    settlements ((l, reply) :: h) = (settlementOf reply).toList ++ settlements h := by
  unfold settlements
  cases hsettled : settlementOf reply with
  | none =>
      rw [List.filterMap_cons_none (f := fun e : UsageStep × UsageReply => settlementOf e.2) hsettled]
      rfl
  | some e =>
      rw [List.filterMap_cons_some (f := fun e : UsageStep × UsageReply => settlementOf e.2) hsettled]
      rfl

/-- **Every step rolls up.** -/
theorem RolledUp.step {h : UsageHistory} {w' : UsageWorld} {l : UsageStep} {reply : UsageReply}
    (hw : RolledUp (settlements h) w) (hown : OwnChats h w l)
    (hstep : UsageWorld.step l w = (reply, w')) : RolledUp (settlements ((l, reply) :: h)) w' := by
  have hsilent : ∀ {w'' : UsageWorld}, RolledUp (settlements h) w'' →
      (UsageReply.nothing, w'') = (reply, w') → RolledUp (settlements ((l, reply) :: h)) w' := by
    intro w'' hw'' heq
    obtain ⟨rfl, rfl⟩ := Prod.mk.inj heq
    rw [settlements_cons]
    exact hw''
  have hwalk : ∀ (i : Nat), (UsageReply.nothing, w.walks[i]?.elim w fun k => w.walkStep l i k) =
      (reply, w') → RolledUp (settlements ((l, reply) :: h)) w' := by
    intro i heq
    cases hk : w.walks[i]? with
    | none =>
        rw [hk] at heq
        exact hsilent hw heq
    | some k =>
        rw [hk] at heq
        exact hsilent (hw.walkStep (List.mem_of_getElem? hk) i l) heq
  cases l with
  | spawn cap identity a u v now => exact hsilent (hw.spawn hown Prod.mk.eta.symm) hstep
  | claim childId =>
      refine hsilent (hw.update (f := fun r => { r with status := .running }) childId
        ChildDb.claimable (fun _ => ⟨rfl, rfl, rfl⟩) (fun _ => ⟨rfl, rfl, rfl⟩) fun r hr => ?_) hstep
      simpa [ChildDb.claimable] using hr
  | interrupt childId error =>
      refine hsilent (hw.update
        (f := fun r => { r with status := .interrupted, error := clip error 2000 }) childId
        (fun r => r.status = .queued) (fun _ => ⟨rfl, rfl, rfl⟩) (fun _ => ⟨rfl, rfl, rfl⟩)
        fun r hr => ?_) hstep
      rw [show r.status = .queued by simpa using hr]
      rfl
  | finish childId f settles u now =>
      unfold UsageWorld.step at hstep
      obtain ⟨rfl, rfl⟩ := Prod.mk.inj hstep
      rw [settlements_cons]
      exact hw.finish settles Prod.mk.eta.symm
  | cancel parentChatId childId =>
      unfold UsageWorld.step at hstep
      dsimp only at hstep
      split at hstep
      · rename_i g db hcancel
        obtain ⟨rfl, rfl⟩ := Prod.mk.inj hstep
        rw [settlements_cons]
        exact (hw.cancel hcancel).1 g rfl
      · rename_i db hcancel
        exact hsilent ((hw.cancel hcancel).2 fun g hg => (by cases hg)) hstep
      · rename_i e db hcancel
        obtain ⟨rfl, rfl⟩ := Prod.mk.inj hstep
        rw [settlements_cons]
        exact (hw.cancel hcancel).2 fun g hg => (by cases hg)
  | restart cap parentChatId childId expectedGeneration requestId message u now =>
      exact hsilent (hw.restart Prod.mk.eta.symm) hstep
  | rollup childId => exact hsilent (hw.rollup childId) hstep
  | record chatId runId receipt uuid eventId now =>
      exact hsilent (hw.record hown Prod.mk.eta.symm) hstep
  | stop => exact hsilent (hw.withWalks fun k hk => (by cases hk)) hstep
  | charge i uuid eventId now => exact hwalk i hstep
  | owner i => exact hwalk i hstep
  | raise i error => exact hwalk i hstep
  | settle i => exact hwalk i hstep

/-- **Every run rolls up.** -/
theorem rolledUp_of_run {h : UsageHistory} (hrun : childUsage.RunWhere OwnChats h w) :
    RolledUp (settlements h) w := by
  refine hrun.invariant (I := fun h w => RolledUp (settlements h) w) ?_
    fun h w l reply w' _ hw hown hstep => hw.step hown hstep
  refine ⟨List.nodup_nil, fun c g u he => (by cases he), fun r hr => (by cases hr),
    fun r hr => (by cases hr), fun c g x r he => (by cases he), fun chat c g u hcharge => (by cases hcharge),
    fun k hk => (by cases hk), ⟨fun chat r hr => (by cases hr), fun c hc => (by cases hc)⟩,
    ⟨fun r hr => (by cases hr), fun r hr => (by cases hr), fun chat rt hrt => (by cases hrt)⟩⟩

end Rewrites

/-- The walk over the chats above a chat ends on every table, also on one with a cycle. -/
theorem walk_ends (db : ChildDb) (chat : String) :
    Trail.follow db.nextChat (db.children.rows.length + 1) [] (some chat) ≠ none := by
  refine Trail.follow_ne_none (db.children.rows.map ChildRow.childChatId) ?_ ?_ (some chat)
  · intro x y hnext
    unfold ChildDb.nextChat at hnext
    split at hnext
    · cases hnext
    · rename_i hparent
      unfold ChildDb.parentOf at hparent
      cases howner : db.owner x with
      | none => rw [howner] at hparent; exact absurd rfl hparent
      | some r =>
          refine List.mem_map.mpr ⟨r, List.mem_of_find?_eq_some howner, ?_⟩
          simpa using List.find?_some howner
  · refine Nat.lt_succ_of_le (le_trans (List.length_filter_le _ _) ?_)
    rw [List.length_map]

/-- **The usage of a child is charged once to every chat above it.**  Whenever the rollup of a
generation is complete, or a restart has gone past it, its usage is one charge of its own chat and of
each of its ancestors; nobody else has a charge for it, and a generation that was cancelled before it
ran has none.  The totals are the sums of the charges, and the walk ends on every table. -/
theorem usage_charged_once {h : UsageHistory} {w : UsageWorld}
    (hrun : childUsage.RunWhere OwnChats h w) :
    (∀ c g x r, (c, g, some x) ∈ settlements h → w.db.row c = some r →
        (r.runGeneration = g → r.usage = x) ∧
        ((r.runGeneration = g → r.usageRollupState = .complete) →
          ∀ a, w.db.Ancestor r.childChatId a → w.db.Charged a c g x)) ∧
      (∀ chat c g u, w.db.charge? chat (rollupId c g) = some u →
        ∃ x r a, (c, g, some x) ∈ settlements h ∧ w.db.row c = some r ∧
          w.db.Ancestor r.childChatId a ∧ ChildDb.runtimeChat a = .ok chat ∧
            u = cleanUsage (receiptUsage x)) ∧
      (∀ c g chat, (c, g, none) ∈ settlements h → w.db.charge? chat (rollupId c g) = none) ∧
      (∀ chat r, w.db.accounts.registry.runtimes.find? chat = some r →
        ∀ key, amount r.budgetUsed key = w.db.total chat key) ∧
      ∀ (db : ChildDb) (chat : String),
        Trail.follow db.nextChat (db.children.rows.length + 1) [] (some chat) ≠ none := by
  have hw := rolledUp_of_run hrun
  refine ⟨fun c g x r he hr => ⟨fun heq => ?_, hw.charged c g x r he hr⟩, hw.sound,
    fun c g chat hcancelled => ?_, hw.books.totals, walk_ends⟩
  · obtain ⟨r', hr', -, hended⟩ := hw.ended c g _ he
    obtain rfl := Option.some.inj (hr.symm.trans hr')
    exact (hended heq.symm).2 x rfl
  · cases hcharge : w.db.charge? chat (rollupId c g) with
    | none => rfl
    | some u =>
        -- the generation would have ended twice
        obtain ⟨x, -, -, he, -⟩ := hw.sound chat c g u hcharge
        have heq := List.inj_on_of_nodup_map hw.once he hcancelled rfl
        cases heq

/-! ## 11.  One child -/

/-- The steps of a child that has used five tokens, after its birth. -/
def fiveTokens : List UsageStep :=
  [.claim "a", .finish "a" ⟨.completed, [("total_tokens", 5)], "", "", "", "", false⟩ rfl 0 2,
    .rollup "a", .charge 0 "" "e" 3, .owner 0, .charge 0 "" "f" 4, .owner 0, .settle 0]

/-- A child of the chat `p` has run, and its usage is rolled up. -/
def fiveTokensRun : UsageHistory × UsageWorld :=
  childUsage.exec ([], childUsage.start)
    (.spawn ⟨4, 8, 16⟩ hostIdentity ⟨"p", "t", "", "", "a", "ac", none⟩ 0 0 1 :: fiveTokens)

/-- The chat `p` is charged with the usage of its child. -/
theorem usage_charged_once_five :
    ("a", 1, some [("total_tokens", 5)]) ∈ settlements fiveTokensRun.1 ∧
      fiveTokensRun.2.db.Charged "p" "a" 1 [("total_tokens", 5)] := by
  have hrun : childUsage.RunWhere OwnChats fiveTokensRun.1 fiveTokensRun.2 := by
    refine Machine.RunWhere.exec (.step .start ?_ rfl) fiveTokens ?_
    · intro r hr
      cases hr
    · intro l hl h s
      simp only [fiveTokens, List.mem_cons, List.not_mem_nil, or_false] at hl
      rcases hl with rfl | rfl | rfl | rfl | rfl | rfl | rfl | rfl <;> trivial
  have hfacts : ("a", 1, some [("total_tokens", 5)]) ∈ settlements fiveTokensRun.1 ∧
      (fiveTokensRun.2.db.row "a").any (fun r => r.usageRollupState == .complete && r.childChatId == "ac") ∧
      fiveTokensRun.2.db.nextChat "ac" = some "p" := by
    decide +kernel
  obtain ⟨hsettled, hrow, hnext⟩ := hfacts
  obtain ⟨r, hr, hstate⟩ := (Option.any_eq_true _ _).mp hrow
  simp only [Bool.and_eq_true, beq_iff_eq] at hstate
  refine ⟨hsettled, ((usage_charged_once hrun).1 "a" 1 _ r hsettled hr).2 (fun _ => hstate.1) "p" ?_⟩
  rw [hstate.2]
  exact Relation.ReflTransGen.single hnext

end SessionCatalog
end VariantOne
