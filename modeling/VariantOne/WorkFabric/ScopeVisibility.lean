import VariantOne.Lib.CodePoints
import VariantOne.WorkFabric.Interactions

/-!
# Who sees a scoped record

A record's scope pins some of twelve fields, and a caller sees the record when every pinned field is the
caller's own.  The rule is written three times: `work_scope_visible` on two scopes, and as a SQL condition
on a scope stored as JSON and on one stored in columns.

SQLite binds no text with a surrogate and no integer beyond `2 ^ 63 - 1`.  From a JSON document it reads a
greater number as a `REAL`, which a cast to `INTEGER` brings back to `2 ^ 63 - 1`.  `Matches cap` is the
rule where the record's numbers are read through `cap`: through `id` on two scopes and in columns, through
that cast in JSON.  The three differ where a number is `Saturated`: `oneRule_iff`.
-/

namespace VariantOne
namespace WorkFabric

/-! ## 1.  Scopes -/

/-- `SCOPE_TEXT_FIELDS` -/
inductive ScopeText where
  | chatId | conversationId | branchId | workspaceId | goalId | goalRunId | stepId | worktreeId
  | catalogReleaseId
  deriving DecidableEq, Repr

/-- `SCOPE_INT_FIELDS` -/
inductive ScopeNumber where
  | workspaceRevision | attempt | kernelGeneration
  deriving DecidableEq, Repr

namespace ScopeText

def name : ScopeText → String
  | chatId => "chat_id"
  | conversationId => "conversation_id"
  | branchId => "branch_id"
  | workspaceId => "workspace_id"
  | goalId => "goal_id"
  | goalRunId => "goal_run_id"
  | stepId => "step_id"
  | worktreeId => "worktree_id"
  | catalogReleaseId => "catalog_release_id"

def all : List ScopeText :=
  [chatId, conversationId, branchId, workspaceId, goalId, goalRunId, stepId, worktreeId, catalogReleaseId]

@[simp] theorem mem_all (f : ScopeText) : f ∈ all := by cases f <;> decide

instance (p : ScopeText → Prop) [DecidablePred p] : Decidable (∀ f, p f) :=
  decidable_of_iff (∀ f ∈ all, p f) ⟨fun h f => h f (mem_all f), fun h f _ => h f⟩

end ScopeText

namespace ScopeNumber

def name : ScopeNumber → String
  | workspaceRevision => "workspace_revision"
  | attempt => "attempt"
  | kernelGeneration => "kernel_generation"

def all : List ScopeNumber := [workspaceRevision, attempt, kernelGeneration]

@[simp] theorem mem_all (f : ScopeNumber) : f ∈ all := by cases f <;> decide

instance (p : ScopeNumber → Prop) [DecidablePred p] : Decidable (∀ f, p f) :=
  decidable_of_iff (∀ f ∈ all, p f) ⟨fun h f => h f (mem_all f), fun h f _ => h f⟩

end ScopeNumber

/-- White space among code points; a surrogate is none. -/
def isSpacePoint (p : CodePoint) : Bool := p.char?.any isSpace

/-- `text.strip()` -/
def stripPoints (text : CodeText) : CodeText := (text.dropWhile isSpacePoint).rdropWhile isSpacePoint

/-- `_identifier`, of a text; `none` where it raises. -/
def scopeIdentifier (value : CodeText) : Option CodeText :=
  let text := stripPoints value
  if 512 < text.length ∨ 0 ∈ text then none else some text

theorem stripPoints_stripPoints (text : CodeText) : stripPoints (stripPoints text) = stripPoints text := by
  have hdrop : (stripPoints text).dropWhile isSpacePoint = stripPoints text := by
    rw [List.dropWhile_eq_self_iff]
    intro hpos
    have hpre : stripPoints text <+: text.dropWhile isSpacePoint := List.rdropWhile_prefix _ _
    rw [hpre.getElem hpos]
    exact List.dropWhile_get_zero_not isSpacePoint text (lt_of_lt_of_le hpos hpre.length_le)
  conv_lhs => rw [stripPoints, hdrop]
  exact List.rdropWhile_idempotent _ _

/-- What is cleaned stays as it is. -/
theorem scopeIdentifier_self {value text : CodeText} (h : scopeIdentifier value = some text) :
    scopeIdentifier text = some text := by
  simp only [scopeIdentifier] at h
  split at h
  · cases h
  · rename_i hok
    obtain rfl := Option.some.inj h
    rw [scopeIdentifier, stripPoints_stripPoints, if_neg hok]

/-- `WorkScope`, field by field, as `__post_init__` leaves it. -/
@[ext]
structure ScopeFields where
  text : ScopeText → CodeText
  number : ScopeNumber → Nat
  clean : ∀ f, scopeIdentifier (text f) = some (text f)

namespace ScopeFields

/-- The scope without the omitted fields. -/
def clear (s : ScopeFields) (omitted : List String) : ScopeFields where
  text f := if f.name ∈ omitted then [] else s.text f
  number f := if f.name ∈ omitted then 0 else s.number f
  clean f := by
    split
    · rfl
    · exact s.clean f

end ScopeFields

/-- A mapping with an entry for some of the fields. -/
structure ScopeMapping where
  text : ScopeText → Option CodeText
  number : ScopeNumber → Option Nat

/-- `WorkScope.to_dict` -/
def ScopeFields.toDict (s : ScopeFields) (includeEmpty : Bool) : ScopeMapping where
  text f := if includeEmpty ∨ s.text f ≠ [] then some (s.text f) else none
  number f := if includeEmpty ∨ s.number f ≠ 0 then some (s.number f) else none

/-- `WorkScope.from_mapping`; `none` where it raises. -/
def ScopeFields.fromMapping (m : ScopeMapping) : Option ScopeFields :=
  if h : ∀ f, (scopeIdentifier ((m.text f).getD [])).isSome then
    some { text := fun f => (scopeIdentifier ((m.text f).getD [])).get (h f),
           number := fun f => (m.number f).getD 0,
           clean := fun f => scopeIdentifier_self (Option.some_get (h f)).symm }
  else none

theorem ScopeFields.toDict_text (s : ScopeFields) (includeEmpty : Bool) (f : ScopeText) :
    ((s.toDict includeEmpty).text f).getD [] = s.text f := by
  simp only [toDict]
  split
  · rfl
  · rename_i hempty
    exact (not_not.mp (not_or.mp hempty).2).symm

theorem ScopeFields.toDict_number (s : ScopeFields) (includeEmpty : Bool) (f : ScopeNumber) :
    ((s.toDict includeEmpty).number f).getD 0 = s.number f := by
  simp only [toDict]
  split
  · rfl
  · rename_i hempty
    exact (not_not.mp (not_or.mp hempty).2).symm

/-- **A scope is read back from its mapping**, with or without the empty fields. -/
theorem ScopeFields.fromMapping_toDict (s : ScopeFields) (includeEmpty : Bool) :
    fromMapping (s.toDict includeEmpty) = some s := by
  have hclean : ∀ f, scopeIdentifier (((s.toDict includeEmpty).text f).getD []) = some (s.text f) := by
    intro f
    rw [toDict_text, s.clean]
  unfold fromMapping
  rw [dif_pos fun f => by rw [hclean f]; rfl]
  congr 1
  ext f : 2
  · exact Option.get_of_eq_some _ (hclean f)
  · exact s.toDict_number includeEmpty f

/-- `work_scope_visible` -/
def ScopeFields.workScopeVisible (record requested : ScopeFields) : Bool :=
  (ScopeText.all.all fun f => record.text f = [] ∨ record.text f = requested.text f) &&
    ScopeNumber.all.all fun f => record.number f = 0 ∨ record.number f = requested.number f

/-! Scopes without surrogates are those of the services. -/

theorem isSpacePoint_ofChar (c : Char) : isSpacePoint (CodePoint.ofChar c) = isSpace c := by
  have hchar : (CodePoint.ofChar c).char? = some c := by
    unfold CodePoint.char?
    rw [dif_pos (show ((CodePoint.ofChar c : CodePoint) : Nat).isValidChar from c.valid)]
    exact congrArg some (Char.ext rfl)
  rw [isSpacePoint, hchar]
  rfl

theorem stripPoints_ofString (s : String) :
    stripPoints (CodeText.ofString s) = (stripChars s.toList).map CodePoint.ofChar := by
  have hspace : isSpacePoint ∘ CodePoint.ofChar = isSpace := funext isSpacePoint_ofChar
  unfold stripPoints stripChars CodeText.ofString List.rdropWhile
  rw [List.dropWhile_map, hspace, ← List.map_reverse, List.dropWhile_map, hspace, List.map_reverse]

/-- A cleaned text is clean as code points. -/
theorem scopeIdentifier_ofString (t : Identifier) :
    scopeIdentifier (CodeText.ofString t.val) = some (CodeText.ofString t.val) := by
  have hstrip : stripChars t.val.toList = t.val.toList := by
    have hval := t.stripped
    rw [strip_eq] at hval
    rw [← congrArg String.toList hval, String.toList_ofList, stripChars_stripChars]
  have hsame : stripPoints (CodeText.ofString t.val) = CodeText.ofString t.val := by
    rw [stripPoints_ofString, hstrip]
    rfl
  have hshort : (CodeText.ofString t.val).length ≤ 512 := by
    rw [CodeText.ofString, List.length_map, String.length_toList]
    exact t.short
  have hnul : (0 : CodePoint) ∉ CodeText.ofString t.val := by
    intro hmem
    obtain ⟨c, hc, hzero⟩ := List.mem_map.mp hmem
    have hcode : c.toNat = (Char.ofNat 0).toNat := congrArg (fun p : CodePoint => (p : Nat)) hzero
    exact t.noNul (Char.toNat_inj.mp hcode ▸ hc)
  rw [scopeIdentifier, hsame, if_neg (not_or.mpr ⟨Nat.not_lt.mpr hshort, hnul⟩)]

/-- A scope of the services, field by field. -/
def WorkScope.fields (s : WorkScope) : ScopeFields where
  text
    | .chatId => CodeText.ofString s.chatId.val
    | .conversationId => CodeText.ofString s.conversationId.val
    | .branchId => CodeText.ofString s.branchId.val
    | .workspaceId => CodeText.ofString s.workspaceId.val
    | .goalId => CodeText.ofString s.goalId.val
    | .goalRunId => CodeText.ofString s.goalRunId.val
    | .stepId => CodeText.ofString s.stepId.val
    | .worktreeId => CodeText.ofString s.worktreeId.val
    | .catalogReleaseId => CodeText.ofString s.catalogReleaseId.val
  number
    | .workspaceRevision => s.workspaceRevision
    | .attempt => s.attempt
    | .kernelGeneration => s.kernelGeneration
  clean f := by cases f <;> exact scopeIdentifier_ofString _

theorem ofString_eq_ofString_iff {s t : String} : CodeText.ofString s = CodeText.ofString t ↔ s = t := by
  have hinj : Function.Injective CodePoint.ofChar := fun c d h =>
    Char.toNat_inj.mp (congrArg (fun p : CodePoint => (p : Nat)) h)
  exact ((List.map_injective_iff.mpr hinj).eq_iff).trans String.toList_inj

theorem ofString_eq_nil_iff {s : String} : CodeText.ofString s = [] ↔ s = "" :=
  ofString_eq_ofString_iff (t := "")

/-- On these, the rule is the one the services apply. -/
theorem workScopeVisible_fields (record requested : WorkScope) :
    record.fields.workScopeVisible requested.fields = workScopeVisible record requested := by
  rw [Bool.eq_iff_iff]
  simp only [ScopeFields.workScopeVisible, workScopeVisible, ScopeText.all, ScopeNumber.all,
    List.all_cons, List.all_nil, Bool.and_true, Bool.and_eq_true, decide_eq_true_eq, Bool.or_eq_true,
    beq_iff_eq]
  simp only [WorkScope.fields, ofString_eq_nil_iff, ofString_eq_ofString_iff]

/-! ## 2.  SQLite -/

/-- The greatest `INTEGER`. -/
def maxInteger : Nat := 9223372036854775807

/-- A natural number of a JSON document, as `json_extract` gives it: a `REAL` where no `INTEGER` is. -/
inductive JsonNumber where
  | integer (n : Nat)
  | real (n : Nat)

namespace JsonNumber

def ofNat (n : Nat) : JsonNumber := if n ≤ maxInteger then integer n else real n

/-- Equality with an `INTEGER`; a `REAL` of a greater number equals none. -/
def equals : JsonNumber → Nat → Bool
  | integer n, m => n = m
  | real _, _ => false

/-- `CAST(… AS INTEGER)`: a greater `REAL` becomes the greatest `INTEGER`. -/
def castInteger : JsonNumber → Nat
  | integer n => n
  | real _ => maxInteger

end JsonNumber

/-- A text as a parameter; binding raises on a surrogate. -/
def bindText (text : CodeText) : Option String := text.text?

/-- An integer as a parameter; binding raises beyond the greatest `INTEGER`. -/
def bindInteger (n : Nat) : Option Nat := if n ≤ maxInteger then some n else none

/-- The conjunction of one clause for each field, each with its parameter. -/
def conjunction {F : Type} (fields : List F) (clause : F → Option Bool) : Option Bool :=
  (fields.mapM clause).map (·.all id)

/-- A scope stored as JSON, its texts written in UTF-8. -/
structure StoredScope where
  text : ScopeText → Option String
  number : ScopeNumber → Option Nat

/-- A row with scope columns. -/
structure ScopeRow where
  text : ScopeText → String
  number : ScopeNumber → Nat

/-- A document as a parameter of the insert. -/
def storeJson (m : ScopeMapping) : Option StoredScope :=
  if ∀ f, (((m.text f).getD []).text?).isSome then
    some { text := fun f => (m.text f).bind CodeText.text?, number := m.number }
  else none

/-- `json.loads(row["scope_json"])` -/
def loadJson (doc : StoredScope) : ScopeMapping where
  text f := (doc.text f).map CodeText.ofString
  number := doc.number

/-- The columns as parameters of the insert. -/
def storeColumns (s : ScopeFields) : Option ScopeRow :=
  if (∀ f, (bindText (s.text f)).isSome) ∧ ∀ f, (bindInteger (s.number f)).isSome then
    some { text := fun f => (bindText (s.text f)).getD "", number := s.number }
  else none

/-- `append_json_scope_visibility`: the condition on a stored document, `none` where binding raises. -/
def jsonScopeVisible (doc : StoredScope) (requested : ScopeFields) (omitted : List String) :
    Option Bool := do
  let texts ← conjunction (ScopeText.all.filter (·.name ∉ omitted)) fun f => do
    let p ← bindText (requested.text f)
    return decide ((doc.text f).getD "" = "" ∨ (doc.text f).getD "" = p)
  let numbers ← conjunction (ScopeNumber.all.filter (·.name ∉ omitted)) fun f => do
    let p ← bindInteger (requested.number f)
    return (JsonNumber.ofNat ((doc.number f).getD 0)).equals 0 ||
      decide ((JsonNumber.ofNat ((doc.number f).getD 0)).castInteger = p)
  return texts && numbers

/-- `append_column_scope_visibility` -/
def columnScopeVisible (row : ScopeRow) (requested : ScopeFields) (omitted : List String) :
    Option Bool := do
  let texts ← conjunction (ScopeText.all.filter (·.name ∉ omitted)) fun f => do
    let p ← bindText (requested.text f)
    return decide (row.text f = "" ∨ row.text f = p)
  let numbers ← conjunction (ScopeNumber.all.filter (·.name ∉ omitted)) fun f => do
    let p ← bindInteger (requested.number f)
    return decide (row.number f = 0 ∨ row.number f = p)
  return texts && numbers

/-- Whether the record of a stored document opens for a caller: the document read back, the omitted fields
cleared. -/
def opensFor (doc : StoredScope) (requested : ScopeFields) (omitted : List String) : Option Bool :=
  (ScopeFields.fromMapping (loadJson doc)).map fun record =>
    (record.clear omitted).workScopeVisible requested

/-! ## 3.  Conditions -/

theorem conjunction_eq_some_iff {F : Type} {fields : List F} {clause : F → Option Bool} {b : Bool} :
    conjunction fields clause = some b ↔
      (∀ f ∈ fields, (clause f).isSome) ∧ (b = true ↔ ∀ f ∈ fields, clause f = some true) := by
  unfold conjunction
  induction fields generalizing b with
  | nil => cases b <;> simp
  | cons f fields ih =>
      rw [List.mapM_cons, List.forall_mem_cons, List.forall_mem_cons]
      cases hf : clause f with
      | none => simp
      | some c =>
          cases hrest : List.mapM clause fields with
          | none =>
              have hnone : ¬ ∀ g ∈ fields, (clause g).isSome := fun hall => by
                have hsome := (ih (b := decide (∀ g ∈ fields, clause g = some true))).mpr
                  ⟨hall, decide_eq_true_iff⟩
                rw [hrest] at hsome
                cases hsome
              exact ⟨nofun, fun h => absurd h.1.2 hnone⟩
          | some bs =>
              rw [hrest] at ih
              have hrec := (ih (b := bs.all id)).mp rfl
              cases b <;> cases c <;> simp_all

/-- A condition on the texts and one on the numbers. -/
theorem conjunctions_eq_some_iff {T N : Type} {texts : List T} {numbers : List N} {text : T → Option Bool}
    {number : N → Option Bool} {b : Bool} :
    (do let x ← conjunction texts text; let y ← conjunction numbers number; return x && y) = some b ↔
      ((∀ f ∈ texts, (text f).isSome) ∧ ∀ f ∈ numbers, (number f).isSome) ∧
        (b = true ↔ (∀ f ∈ texts, text f = some true) ∧ ∀ f ∈ numbers, number f = some true) := by
  constructor
  · intro h
    obtain ⟨x, hx, h⟩ := Option.bind_eq_some_iff.mp h
    obtain ⟨y, hy, h⟩ := Option.bind_eq_some_iff.mp h
    obtain rfl := Option.some.inj h
    obtain ⟨htexts, hx⟩ := conjunction_eq_some_iff.mp hx
    obtain ⟨hnumbers, hy⟩ := conjunction_eq_some_iff.mp hy
    exact ⟨⟨htexts, hnumbers⟩, by rw [Bool.and_eq_true, hx, hy]⟩
  · rintro ⟨⟨htexts, hnumbers⟩, hb⟩
    have hx := conjunction_eq_some_iff.mpr ⟨htexts, decide_eq_true_iff⟩
    have hy := conjunction_eq_some_iff.mpr ⟨hnumbers, decide_eq_true_iff⟩
    rw [hx, hy]
    refine congrArg some ?_
    rw [Bool.eq_iff_iff, hb, Bool.and_eq_true, decide_eq_true_iff, decide_eq_true_iff]

/-- The parameters of the fields that are not omitted can be bound. -/
def Bindable (requested : ScopeFields) (omitted : List String) : Prop :=
  (∀ f : ScopeText, f.name ∉ omitted → (bindText (requested.text f)).isSome) ∧
    ∀ f : ScopeNumber, f.name ∉ omitted → requested.number f ≤ maxInteger

/-- Every field the record pins and that is not omitted is the caller's, the record's numbers read through
`cap`. -/
def Matches (cap : Nat → Nat) (record requested : ScopeFields) (omitted : List String) : Prop :=
  (∀ f : ScopeText, f.name ∉ omitted → record.text f = [] ∨ record.text f = requested.text f) ∧
    ∀ f : ScopeNumber, f.name ∉ omitted → record.number f = 0 ∨ cap (record.number f) = requested.number f

/-- **`work_scope_visible` is the rule.** -/
theorem workScopeVisible_iff (record requested : ScopeFields) (omitted : List String) :
    (record.clear omitted).workScopeVisible requested = true ↔ Matches id record requested omitted := by
  simp only [ScopeFields.workScopeVisible, Bool.and_eq_true, List.all_eq_true, ScopeText.mem_all,
    ScopeNumber.mem_all, forall_const, ScopeFields.clear, Matches, id]
  refine and_congr (forall_congr' fun f => ?_) (forall_congr' fun f => ?_)
  · by_cases hf : f.name ∈ omitted <;> simp [hf]
  · by_cases hf : f.name ∈ omitted <;> simp [hf]

/-- Texts are equal when what is bound for them is. -/
theorem bindText_inj {s t : CodeText} {u : String} (hs : bindText s = some u) (ht : bindText t = some u) :
    s = t := by
  rw [← CodeText.ofString_of_text? hs, CodeText.ofString_of_text? ht]

/-- A clause about a text. -/
theorem textClause_eq_some {t q : CodeText} {u : String} (ht : bindText t = some u) :
    ((do let p ← bindText q; return decide (u = "" ∨ u = p)) = some true) ↔
      (bindText q).isSome ∧ (t = [] ∨ t = q) := by
  have hempty : u = "" ↔ t = [] := by
    constructor
    · rintro rfl
      exact bindText_inj ht rfl
    · rintro rfl
      exact (Option.some.inj ht).symm
  cases hq : bindText q with
  | none => simp
  | some p =>
      have hsame : u = p ↔ t = q := by
        constructor
        · rintro rfl
          exact bindText_inj ht hq
        · rintro rfl
          exact Option.some.inj (ht.symm.trans hq)
      simp [hempty, hsame]

theorem bindInteger_isSome_iff {n : Nat} : (bindInteger n).isSome ↔ n ≤ maxInteger := by
  unfold bindInteger
  split <;> simp_all

/-- A clause about a number of a document. -/
theorem jsonNumberClause_eq_some {n q : Nat} :
    ((do let p ← bindInteger q
         return (JsonNumber.ofNat n).equals 0 || decide ((JsonNumber.ofNat n).castInteger = p)) =
      some true) ↔
      q ≤ maxInteger ∧ (n = 0 ∨ min n maxInteger = q) := by
  unfold bindInteger JsonNumber.ofNat
  by_cases hq : q ≤ maxInteger
  · by_cases hn : n ≤ maxInteger
    · simp [hq, hn, JsonNumber.equals, JsonNumber.castInteger]
    · have hmin : min n maxInteger = maxInteger := min_eq_right (Nat.le_of_not_le hn)
      have hzero : n ≠ 0 := fun h => hn (h ▸ Nat.zero_le _)
      simp [hq, hn, hmin, hzero, JsonNumber.equals, JsonNumber.castInteger]
  · simp [hq]

/-- A clause about a number of a row. -/
theorem rowNumberClause_eq_some {n q : Nat} :
    ((do let p ← bindInteger q; return decide (n = 0 ∨ n = p)) = some true) ↔
      q ≤ maxInteger ∧ (n = 0 ∨ n = q) := by
  unfold bindInteger
  by_cases hq : q ≤ maxInteger <;> simp [hq]

/-! ## 4.  One rule in three places -/

/-- The texts of a record can be written. -/
def Storable (record : ScopeFields) : Prop := ∀ f, (bindText (record.text f)).isSome

/-- A written document is read back. -/
theorem loadJson_of_storeJson {m : ScopeMapping} {doc : StoredScope} (h : storeJson m = some doc) :
    loadJson doc = m := by
  unfold storeJson at h
  split at h
  · rename_i hall
    obtain rfl := Option.some.inj h
    have htext : ∀ f, ((m.text f).bind CodeText.text?).map CodeText.ofString = m.text f := fun f => by
      have hsome := hall f
      cases hf : m.text f with
      | none => rfl
      | some t =>
          rw [hf, Option.getD_some] at hsome
          obtain ⟨u, hu⟩ := Option.isSome_iff_exists.mp hsome
          rw [Option.bind_some, hu, Option.map_some, CodeText.ofString_of_text? hu]
    unfold loadJson
    simp only [htext]
  · cases h

/-- What is stored of a record. -/
theorem storeJson_toDict {record : ScopeFields} {includeEmpty : Bool} {doc : StoredScope}
    (h : storeJson (record.toDict includeEmpty) = some doc) :
    (∀ f, bindText (record.text f) = some ((doc.text f).getD "")) ∧
      ∀ f, (doc.number f).getD 0 = record.number f := by
  unfold storeJson at h
  split at h
  · rename_i hall
    obtain rfl := Option.some.inj h
    refine ⟨fun f => ?_, record.toDict_number includeEmpty⟩
    have hsome := hall f
    rw [record.toDict_text] at hsome
    obtain ⟨u, hu⟩ := Option.isSome_iff_exists.mp hsome
    by_cases hf : includeEmpty ∨ record.text f ≠ []
    · simp only [ScopeFields.toDict, if_pos hf, Option.bind_some, bindText, hu, Option.getD_some]
    · simp only [ScopeFields.toDict, if_neg hf, Option.bind_none, Option.getD_none]
      rw [not_not.mp (not_or.mp hf).2]
      rfl
  · cases h

theorem storeJson_isSome_iff {record : ScopeFields} {includeEmpty : Bool} :
    (∃ doc, storeJson (record.toDict includeEmpty) = some doc) ↔ Storable record := by
  unfold storeJson Storable bindText
  simp only [record.toDict_text]
  split
  · rename_i hall
    exact ⟨fun _ => hall, fun _ => ⟨_, rfl⟩⟩
  · rename_i hall
    exact ⟨fun ⟨_, h⟩ => (nomatch h), fun h => absurd h hall⟩

/-- What a row holds of a record. -/
theorem storeColumns_eq_some {record : ScopeFields} {row : ScopeRow} (h : storeColumns record = some row) :
    (∀ f, bindText (record.text f) = some (row.text f)) ∧ ∀ f, row.number f = record.number f := by
  unfold storeColumns at h
  split at h
  · rename_i hall
    obtain rfl := Option.some.inj h
    refine ⟨fun f => ?_, fun _ => rfl⟩
    obtain ⟨u, hu⟩ := Option.isSome_iff_exists.mp (hall.1 f)
    simp only [hu, Option.getD_some]
  · cases h

theorem mem_kept_text {f : ScopeText} {omitted : List String} :
    f ∈ ScopeText.all.filter (·.name ∉ omitted) ↔ f.name ∉ omitted := by
  rw [List.mem_filter, decide_eq_true_iff]
  exact and_iff_right (ScopeText.mem_all f)

theorem mem_kept_number {f : ScopeNumber} {omitted : List String} :
    f ∈ ScopeNumber.all.filter (·.name ∉ omitted) ↔ f.name ∉ omitted := by
  rw [List.mem_filter, decide_eq_true_iff]
  exact and_iff_right (ScopeNumber.mem_all f)

/-- Conditions whose clauses tell whether their fields match. -/
theorem visible_eq_some_iff {record requested : ScopeFields} {omitted : List String} {cap : Nat → Nat}
    {text : ScopeText → Option Bool} {number : ScopeNumber → Option Bool} {b : Bool}
    (htext : ∀ f, ((text f).isSome ↔ (bindText (requested.text f)).isSome) ∧ (text f = some true ↔
      (bindText (requested.text f)).isSome ∧ (record.text f = [] ∨ record.text f = requested.text f)))
    (hnumber : ∀ f, ((number f).isSome ↔ requested.number f ≤ maxInteger) ∧ (number f = some true ↔
      requested.number f ≤ maxInteger ∧
        (record.number f = 0 ∨ cap (record.number f) = requested.number f))) :
    (do let x ← conjunction (ScopeText.all.filter (·.name ∉ omitted)) text
        let y ← conjunction (ScopeNumber.all.filter (·.name ∉ omitted)) number
        return x && y) = some b ↔
      Bindable requested omitted ∧ (b = true ↔ Matches cap record requested omitted) := by
  rw [conjunctions_eq_some_iff]
  simp only [mem_kept_text, mem_kept_number, htext, hnumber, Bindable, Matches]
  refine and_congr_right fun hbind => ?_
  refine iff_congr Iff.rfl (and_congr ?_ ?_)
  · exact forall₂_congr fun f hf => and_iff_right (hbind.1 f hf)
  · exact forall₂_congr fun f hf => and_iff_right (hbind.2 f hf)

theorem textClause_isSome {q : CodeText} {u : String} :
    (do let p ← bindText q; return decide (u = "" ∨ u = p) : Option Bool).isSome ↔ (bindText q).isSome := by
  cases bindText q <;> simp

/-- **The condition on a stored document** reads the numbers through a cast. -/
theorem jsonScopeVisible_eq_some_iff {record requested : ScopeFields} {omitted : List String}
    {includeEmpty : Bool} {doc : StoredScope} {b : Bool}
    (h : storeJson (record.toDict includeEmpty) = some doc) :
    jsonScopeVisible doc requested omitted = some b ↔
      Bindable requested omitted ∧ (b = true ↔ Matches (min · maxInteger) record requested omitted) := by
  obtain ⟨htext, hnumber⟩ := storeJson_toDict h
  refine visible_eq_some_iff (fun f => ⟨textClause_isSome, textClause_eq_some (htext f)⟩) fun f => ?_
  rw [hnumber f]
  refine ⟨?_, jsonNumberClause_eq_some⟩
  rw [← bindInteger_isSome_iff]
  cases bindInteger (requested.number f) <;> simp

/-- **The condition on columns.** -/
theorem columnScopeVisible_eq_some_iff {record requested : ScopeFields} {omitted : List String}
    {row : ScopeRow} (h : storeColumns record = some row) {b : Bool} :
    columnScopeVisible row requested omitted = some b ↔
      Bindable requested omitted ∧ (b = true ↔ Matches id record requested omitted) := by
  obtain ⟨htext, hnumber⟩ := storeColumns_eq_some h
  refine visible_eq_some_iff (fun f => ⟨textClause_isSome, textClause_eq_some (htext f)⟩) fun f => ?_
  rw [hnumber f]
  refine ⟨?_, rowNumberClause_eq_some⟩
  rw [← bindInteger_isSome_iff]
  cases bindInteger (requested.number f) <;> simp

/-- A record opens as the record that was stored. -/
theorem opensFor_eq {record : ScopeFields} {includeEmpty : Bool} {doc : StoredScope}
    (h : storeJson (record.toDict includeEmpty) = some doc) (requested : ScopeFields)
    (omitted : List String) :
    opensFor doc requested omitted = some ((record.clear omitted).workScopeVisible requested) := by
  rw [opensFor, loadJson_of_storeJson h, ScopeFields.fromMapping_toDict]
  rfl

/-- The three places give one answer for a record, however it is stored. -/
def OneRule (record requested : ScopeFields) (omitted : List String) (includeEmpty : Bool) : Prop :=
  (∀ doc, storeJson (record.toDict includeEmpty) = some doc →
    jsonScopeVisible doc requested omitted = opensFor doc requested omitted) ∧
  ∀ row, storeColumns record = some row →
    columnScopeVisible row requested omitted = some ((record.clear omitted).workScopeVisible requested)

/-- The record holds a greater number where the caller's is the greatest `INTEGER`. -/
def Saturated (record requested : ScopeFields) (omitted : List String) : Prop :=
  ∃ f : ScopeNumber, f.name ∉ omitted ∧ maxInteger < record.number f ∧ requested.number f = maxInteger

/-- Reading through a cast shows more only where a number is saturated. -/
theorem matches_id_iff {record requested : ScopeFields} {omitted : List String}
    (hbind : Bindable requested omitted) :
    Matches id record requested omitted ↔
      Matches (min · maxInteger) record requested omitted ∧ ¬ Saturated record requested omitted := by
  constructor
  · intro h
    refine ⟨⟨h.1, fun f hf => (h.2 f hf).imp_right fun heq => ?_⟩, fun ⟨f, hf, hrecord, hrequested⟩ => ?_⟩
    · rw [show record.number f = requested.number f from heq]
      exact min_eq_left (hbind.2 f hf)
    · obtain hzero | heq := h.2 f hf
      · omega
      · exact absurd (heq.trans hrequested) (Nat.ne_of_gt hrecord)
  · rintro ⟨h, hsat⟩
    refine ⟨h.1, fun f hf => (h.2 f hf).imp_right fun heq => ?_⟩
    obtain hlt | hle := Nat.lt_or_ge maxInteger (record.number f)
    · exact absurd ⟨f, hf, hlt, heq.symm.trans (min_eq_right (Nat.le_of_lt hlt))⟩ hsat
    · exact (min_eq_left hle).symm.trans heq

/-- **When the three places agree.** -/
theorem oneRule_iff (record requested : ScopeFields) (omitted : List String) (includeEmpty : Bool) :
    OneRule record requested omitted includeEmpty ↔
      (Storable record → Bindable requested omitted ∧
        ¬ (Saturated record requested omitted ∧ Matches (min · maxInteger) record requested omitted)) := by
  have hvisible := workScopeVisible_iff record requested omitted
  constructor
  · rintro ⟨hjson, -⟩ hstorable
    obtain ⟨doc, hdoc⟩ := storeJson_isSome_iff.mpr hstorable
    have hsame := (hjson doc hdoc).trans (opensFor_eq hdoc requested omitted)
    obtain ⟨hbind, hiff⟩ := (jsonScopeVisible_eq_some_iff hdoc).mp hsame
    rw [hvisible, matches_id_iff hbind] at hiff
    exact ⟨hbind, fun ⟨hsat, hmatch⟩ => (hiff.mpr hmatch).2 hsat⟩
  · intro h
    constructor
    · intro doc hdoc
      obtain ⟨hbind, hsat⟩ := h (storeJson_isSome_iff.mp ⟨doc, hdoc⟩)
      rw [opensFor_eq hdoc, jsonScopeVisible_eq_some_iff hdoc, hvisible, matches_id_iff hbind]
      exact ⟨hbind, fun hm => hm.1, fun hm => ⟨hm, fun hs => hsat ⟨hs, hm⟩⟩⟩
    · intro row hrow
      have hstorable : Storable record := fun f => by rw [(storeColumns_eq_some hrow).1 f]; rfl
      rw [columnScopeVisible_eq_some_iff hrow]
      exact ⟨(h hstorable).1, hvisible⟩

/-- A scope of a kernel generation and nothing else. -/
def generationScope (n : Nat) : ScopeFields where
  text _ := []
  number f := if f = .kernelGeneration then n else 0
  clean _ := rfl

/-- A record of generation `2 ^ 63` is listed for the caller of generation `2 ^ 63 - 1` and does not
open. -/
theorem listed_and_not_opened :
    ¬ ∀ record requested omitted includeEmpty, OneRule record requested omitted includeEmpty := fun h => by
  have hsame := (h (generationScope (maxInteger + 1)) (generationScope maxInteger) [] true).1 _ rfl
  exact absurd hsame (by decide)

end WorkFabric
end VariantOne
