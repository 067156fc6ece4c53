import Mathlib.Algebra.Order.Ring.Rat
import VariantOne.Lib.Json

/-!
# Values, strict JSON and fingerprints

The host handles dynamic values (`PyValue`): what a caller may pass where the
source says `Any`.  `strictJsonValue` detaches the strict-JSON part of such a
value or rejects it with the exact path; lists and tuples, dictionaries and
objects with a `to_dict` are flattened to the same JSON, which is why a value
read back from the store need not equal the value that was written.  That
comparison is `PyValue.eqJson`: the source's `!=` between a decoded document and
the argument of a call.

A fingerprint is the digest of a canonical text.  The digest, the text of a
float and the configured size limit belong to the host (`Host`).
-/

namespace VariantOne

/-! ## What is raised -/

/-- The exception types a caller can tell apart. -/
inductive ErrorKind where
  | workNotFound | workConflict | leaseLost | invalidTransition | repositoryCorrupt
  | strictJSON | valueError | typeError | overflowError | integrityError | cancelled | runtimeError
  deriving DecidableEq, Repr

/-- A raised exception: its type and its message. -/
structure Raised where
  kind : ErrorKind
  message : String
  deriving DecidableEq, Repr

/-- `except WorkConflict`: `LeaseLost` is a subclass of it. -/
def Raised.isWorkConflict (e : Raised) : Prop := e.kind = .workConflict ∨ e.kind = .leaseLost

/-! ## Dynamic values -/

/-- The rational number a float's text denotes. -/
def FloatText.value (x : FloatText) : ℚ :=
  let cs := x.text.toList
  let negative := cs.head? == some '-'
  let body := if negative then cs.tail else cs
  let mantissa := body.takeWhile (· != 'e')
  let exponent := (body.dropWhile (· != 'e')).tail
  let whole := mantissa.takeWhile (· != '.')
  let fraction := (mantissa.dropWhile (· != '.')).tail
  let digits : ℚ := Nat.ofDigitChars 10 (whole ++ fraction) 0
  let scale := 10 ^ Nat.ofDigitChars 10 (exponent.filter Char.isDigit) 0
  let size := digits / 10 ^ fraction.length
  let scaled := if exponent.head? == some '-' then size / scale else size * scale
  if negative then -scaled else scaled

/-- A value of the host language.  `record` is an object with a `to_dict`
method, known by what the method returns; `foreign` is any other object. -/
inductive PyValue where
  | none
  | bool (b : Bool)
  | int (i : Int)
  | float (x : FloatText)
  | nonFinite (text : String)
  | str (s : String)
  | bytes (data : List UInt8)
  | list (items : List PyValue)
  | tuple (items : List PyValue)
  | dict (entries : List (String × PyValue))
  | record (toDict : PyValue)
  | foreign (typeName : String)
  deriving Repr

/-- A dictionary argument: its entries in insertion order. -/
abbrev PyDict := List (String × PyValue)

/-- The rejection of `strict_json_value`. -/
def strictJSONError (message : String) : Raised := ⟨.strictJSON, message⟩

mutual

/-- `strict_json_value`: the detached strict-JSON value, or the exact bad path. -/
def strictJsonValue : PyValue → String → Except Raised Json
  | .none, _ => .ok .null
  | .bool b, _ => .ok (.bool b)
  | .int i, _ => .ok (.int i)
  | .float x, _ => .ok (.float x)
  | .nonFinite _, path => .error (strictJSONError s!"non-finite number at {path}")
  | .str s, _ => .ok (.str s)
  | .bytes _, path => .error (strictJSONError s!"unsupported JSON value at {path}: bytes")
  | .list vs, path => (strictItems vs path 0).map .arr
  | .tuple vs, path => (strictItems vs path 0).map .arr
  | .dict es, path => (strictEntries es path).map .obj
  | .record v, path => strictJsonValue v path
  | .foreign name, path => .error (strictJSONError s!"unsupported JSON value at {path}: {name}")

/-- The items of a list or tuple, numbered from `index`. -/
def strictItems : List PyValue → String → Nat → Except Raised (List Json)
  | [], _, _ => .ok []
  | v :: vs, path, index =>
      match strictJsonValue v s!"{path}[{index}]" with
      | .error e => .error e
      | .ok j => (strictItems vs path (index + 1)).map (j :: ·)

/-- The entries of a dictionary. -/
def strictEntries : PyDict → String → Except Raised (List (String × Json))
  | [], _ => .ok []
  | (k, v) :: es, path =>
      match strictJsonValue v s!"{path}.{k}" with
      | .error e => .error e
      | .ok j => (strictEntries es path).map ((k, j) :: ·)

end

mutual

/-- A decoded JSON value as a value of the host language. -/
def Json.toPy : Json → PyValue
  | .null => .none
  | .bool b => .bool b
  | .int i => .int i
  | .float x => .float x
  | .str s => .str s
  | .arr vs => .list (itemsToPy vs)
  | .obj es => .dict (entriesToPy es)

/-- `Json.toPy`, item by item. -/
def itemsToPy : List Json → List PyValue
  | [] => []
  | v :: vs => v.toPy :: itemsToPy vs

/-- `Json.toPy`, entry by entry. -/
def entriesToPy : List (String × Json) → PyDict
  | [] => []
  | (k, v) :: es => (k, v.toPy) :: entriesToPy es

end

/-! ## Equality between a decoded document and an argument -/

/-- The number a value is, for numeric equality: `True == 1 == 1.0`. -/
def PyValue.number? : PyValue → Option ℚ
  | .bool b => some (if b then 1 else 0)
  | .int i => some i
  | .float x => some x.value
  | _ => Option.none

/-- The number a JSON value is. -/
def Json.number? : Json → Option ℚ
  | .bool b => some (if b then 1 else 0)
  | .int i => some i
  | .float x => some x.value
  | _ => none

mutual

/-- `decoded == argument`.  A decoded list is never equal to a tuple, and a
decoded dictionary never equal to an object that merely has a `to_dict`. -/
def PyValue.eqJson : PyValue → Json → Bool
  | .none, .null => true
  | .str s, .str t => s == t
  | .list vs, .arr js => eqItems vs js
  | .dict es, .obj js => es.length == js.length && eqEntries es js
  | v, j =>
      match v.number?, j.number? with
      | some a, some b => a == b
      | _, _ => false

/-- Lists are compared item by item. -/
def PyValue.eqItems : List PyValue → List Json → Bool
  | [], [] => true
  | v :: vs, j :: js => v.eqJson j && PyValue.eqItems vs js
  | _, _ => false

/-- Dictionaries are compared by lookup. -/
def PyValue.eqEntries : PyDict → List (String × Json) → Bool
  | [], _ => true
  | (k, v) :: es, js =>
      match Dict.get? js k with
      | some j => v.eqJson j && PyValue.eqEntries es js
      | Option.none => false

end

/-- `decoded == argument`, for dictionaries. -/
def eqDict (es : PyDict) (js : List (String × Json)) : Bool :=
  es.length == js.length && PyValue.eqEntries es js

/-! ## The host, documents and fingerprints -/

/-- What the environment supplies: the SHA-256 digest of a text in hexadecimal,
the text of a float and the float a text reads as, and the configured limit on
inline JSON. -/
structure Host where
  sha256 : List Char → String
  floatText : ℚ → FloatText
  readFloat : String → Option ℚ
  configuredInlineJsonBytes : Nat

/-- A host for concrete runs.  Its digest is the digested text itself, so no two
texts collide. -/
def Host.plain : Host := ⟨String.ofList, fun _ => ⟨"0.0", by decide⟩, fun _ => none, 0⟩

/-- `_max_inline_json_bytes` -/
def Host.maxInlineJsonBytes (H : Host) : Nat := max (64 * 1024) H.configuredInlineJsonBytes

/-- `request_fingerprint`: the digest of the canonical text of an operation and
its arguments. -/
def requestFingerprint (H : Host) (operation : String) (arguments : PyValue) :
    Except Raised String :=
  (strictJsonValue arguments "$").map fun a =>
    H.sha256 (Json.dumps (.obj [("operation", .str operation), ("arguments", a)]))

/-- A document too long to be kept inline. -/
def inlineTooLarge : Raised :=
  ⟨.valueError,
    "inline Work Fabric JSON exceeds the configured limit; store it as an artifact"⟩

/-- The canonical text of a document fits the limit. -/
def fitsInline (H : Host) (j : Json) : Prop :=
  Json.utf8Length (Json.dumps j) ≤ H.maxInlineJsonBytes

instance (H : Host) (j : Json) : Decidable (fitsInline H j) := Nat.decLe _ _

/-- `_json(dict(value))`, as the document that is read back from its text: the
strict value, refused when its canonical text is too long, with its keys
sorted. -/
def inlineJson (H : Host) (value : PyDict) : Except Raised (List (String × Json)) :=
  match strictEntries value "$" with
  | .error e => .error e
  | .ok es =>
      if fitsInline H (.obj es) then .ok (Dict.sort (Json.canonEntries es))
      else .error inlineTooLarge

/-! ## Reading back what was written -/

mutual

/-- Strict JSON is its own strict value. -/
theorem strictJsonValue_toPy (j : Json) (path : String) : strictJsonValue j.toPy path = .ok j := by
  cases j with
  | arr vs => simp [Json.toPy, strictJsonValue, strictItems_toPy vs, Except.map]
  | obj es => simp [Json.toPy, strictJsonValue, strictEntries_toPy es, Except.map]
  | _ => rfl

theorem strictItems_toPy (vs : List Json) (path : String) (index : Nat) :
    strictItems (itemsToPy vs) path index = .ok vs := by
  cases vs with
  | nil => rfl
  | cons v vs =>
      simp [itemsToPy, strictItems, strictJsonValue_toPy v, strictItems_toPy vs, Except.map]

theorem strictEntries_toPy (es : List (String × Json)) (path : String) :
    strictEntries (entriesToPy es) path = .ok es := by
  cases es with
  | nil => rfl
  | cons p es =>
      obtain ⟨k, v⟩ := p
      simp [entriesToPy, strictEntries, strictJsonValue_toPy v, strictEntries_toPy es, Except.map]

end

theorem strictEntries_cons {k : String} {v : PyValue} {es : PyDict} {path : String}
    {js : List (String × Json)} (h : strictEntries ((k, v) :: es) path = .ok js) :
    ∃ j js', strictJsonValue v s!"{path}.{k}" = .ok j ∧ strictEntries es path = .ok js' ∧
      js = (k, j) :: js' := by
  rw [strictEntries] at h
  cases hv : strictJsonValue v s!"{path}.{k}" with
  | error e =>
      rw [hv] at h
      exact absurd h (by simp)
  | ok j =>
      rw [hv] at h
      cases hs : strictEntries es path with
      | error e => simp [hs, Except.map] at h
      | ok js' =>
          simp only [hs, Except.map, Except.ok.injEq] at h
          exact ⟨j, js', rfl, rfl, h.symm⟩

theorem strictItems_cons {v : PyValue} {vs : List PyValue} {path : String} {index : Nat}
    {js : List Json} (h : strictItems (v :: vs) path index = .ok js) :
    ∃ j js', strictJsonValue v s!"{path}[{index}]" = .ok j ∧
      strictItems vs path (index + 1) = .ok js' ∧ js = j :: js' := by
  rw [strictItems] at h
  cases hv : strictJsonValue v s!"{path}[{index}]" with
  | error e =>
      rw [hv] at h
      exact absurd h (by simp)
  | ok j =>
      rw [hv] at h
      cases hs : strictItems vs path (index + 1) with
      | error e => simp [hs, Except.map] at h
      | ok js' =>
          simp only [hs, Except.map, Except.ok.injEq] at h
          exact ⟨j, js', rfl, rfl, h.symm⟩

theorem keys_of_strictEntries {es : PyDict} {path : String} {js : List (String × Json)}
    (h : strictEntries es path = .ok js) : Dict.keys js = Dict.keys es := by
  induction es generalizing js with
  | nil =>
      rw [strictEntries, Except.ok.injEq] at h
      rw [← h]
      rfl
  | cons p es ih =>
      obtain ⟨k, v⟩ := p
      obtain ⟨j, js', _, hs, rfl⟩ := strictEntries_cons h
      rw [Dict.keys_cons, Dict.keys_cons, ih hs]

/-- A lookup in a dictionary, and in the strict value of it. -/
theorem get?_of_strictEntries {es : PyDict} {path : String} {js : List (String × Json)}
    (h : strictEntries es path = .ok js) {k : String} {v : PyValue}
    (hk : Dict.get? es k = some v) :
    ∃ j, strictJsonValue v s!"{path}.{k}" = .ok j ∧ Dict.get? js k = some j := by
  induction es generalizing js with
  | nil => exact absurd hk (by simp)
  | cons p es ih =>
      obtain ⟨k', v'⟩ := p
      obtain ⟨j, js', hj, hs, rfl⟩ := strictEntries_cons h
      rw [Dict.get?_cons] at hk
      by_cases hkk : k' = k
      · subst hkk
        rw [if_pos rfl, Option.some.injEq] at hk
        subst hk
        exact ⟨j, hj, by rw [Dict.get?_cons, if_pos rfl]⟩
      · rw [if_neg hkk] at hk
        obtain ⟨i, hi, hik⟩ := ih hs hk
        exact ⟨i, hi, by rw [Dict.get?_cons, if_neg hkk, hik]⟩

/-- What a document holds under a key whose value is a text. -/
theorem get?_inlineJson_str {H : Host} {es : PyDict} {doc : List (String × Json)}
    (hwf : Dict.WF es) (h : inlineJson H es = .ok doc) {k s : String}
    (hk : Dict.get? es k = some (.str s)) : Dict.get? doc k = some (.str s) := by
  unfold inlineJson at h
  cases hs : strictEntries es "$" with
  | error e => simp [hs] at h
  | ok js =>
      rw [hs] at h
      dsimp only at h
      split at h
      · obtain rfl := Except.ok.inj h
        obtain ⟨j, hj, hget⟩ := get?_of_strictEntries hs hk
        obtain rfl : Json.str s = j := by simpa [strictJsonValue] using hj
        have hkeys : Dict.WF (Json.canonEntries js) := by
          unfold Dict.WF
          rw [Json.keys_canonEntries, keys_of_strictEntries hs]
          exact hwf
        have hmem : (k, Json.str s) ∈ Json.canonEntries js := by
          rw [Json.canonEntries_eq_map]
          exact List.mem_map.mpr ⟨(k, .str s), Dict.mem_of_get? hget, by simp [Json.canon]⟩
        rw [hkeys.sort.get?_eq_some_iff]
        exact (Dict.sort_perm _).mem_iff.mpr hmem
      · exact absurd h (by simp)

mutual

/-- A value that is JSON already: no tuple, no object, no key twice. -/
def PyValue.plain : PyValue → Bool
  | .none | .bool _ | .int _ | .float _ | .str _ => true
  | .list vs => PyValue.plainItems vs
  | .dict es => decide (Dict.WF es) && PyValue.plainEntries es
  | .nonFinite _ | .bytes _ | .tuple _ | .record _ | .foreign _ => false

/-- `PyValue.plain`, item by item. -/
def PyValue.plainItems : List PyValue → Bool
  | [] => true
  | v :: vs => v.plain && PyValue.plainItems vs

/-- `PyValue.plain`, entry by entry. -/
def PyValue.plainEntries : PyDict → Bool
  | [] => true
  | (_, v) :: es => v.plain && PyValue.plainEntries es

end

/-- A dictionary argument that is JSON already. -/
def plainDict (es : PyDict) : Bool := (PyValue.dict es).plain

/-- Comparing by lookup, one entry at a time. -/
theorem eqEntries_of_forall {es : PyDict} {js : List (String × Json)}
    (h : ∀ q ∈ es, ∃ j, Dict.get? js q.1 = some j ∧ q.2.eqJson j = true) :
    PyValue.eqEntries es js = true := by
  induction es with
  | nil => rw [PyValue.eqEntries]
  | cons q es ih =>
      obtain ⟨k, v⟩ := q
      obtain ⟨j, hj, hv⟩ := h (k, v) (by simp)
      simp [PyValue.eqEntries, hj, hv, ih fun q hq => h q (by simp [hq])]

mutual

/-- A value that is JSON already equals what is read back of it. -/
theorem eqJson_canon {v : PyValue} {path : String} {j : Json} (hv : v.plain = true)
    (h : strictJsonValue v path = .ok j) : v.eqJson j.canon = true := by
  cases v with
  | none =>
      obtain rfl : Json.null = j := by simpa [strictJsonValue] using h
      rfl
  | bool b =>
      obtain rfl : Json.bool b = j := by simpa [strictJsonValue] using h
      simp [Json.canon, PyValue.eqJson, PyValue.number?, Json.number?]
  | int i =>
      obtain rfl : Json.int i = j := by simpa [strictJsonValue] using h
      simp [Json.canon, PyValue.eqJson, PyValue.number?, Json.number?]
  | float x =>
      obtain rfl : Json.float x = j := by simpa [strictJsonValue] using h
      simp [Json.canon, PyValue.eqJson, PyValue.number?, Json.number?]
  | str s =>
      obtain rfl : Json.str s = j := by simpa [strictJsonValue] using h
      simp [Json.canon, PyValue.eqJson]
  | list vs =>
      rw [PyValue.plain] at hv
      rw [strictJsonValue] at h
      cases hs : strictItems vs path 0 with
      | error e => simp [hs, Except.map] at h
      | ok js =>
          obtain rfl : Json.arr js = j := by simpa [hs, Except.map] using h
          rw [Json.canon, PyValue.eqJson]
          exact eqItems_canon hv hs
  | dict es =>
      rw [PyValue.plain, Bool.and_eq_true, decide_eq_true_eq] at hv
      rw [strictJsonValue] at h
      cases hs : strictEntries es path with
      | error e => simp [hs, Except.map] at h
      | ok js =>
          obtain rfl : Json.obj js = j := by simpa [hs, Except.map] using h
          have hkeys := keys_of_strictEntries hs
          have hwf : Dict.WF (Json.canonEntries js) := by
            unfold Dict.WF
            rw [Json.keys_canonEntries, hkeys]
            exact hv.1
          have hlen : (Dict.sort (Json.canonEntries js)).length = es.length := by
            rw [(Dict.sort_perm _).length_eq, Json.canonEntries_eq_map, List.length_map]
            simpa [Dict.keys] using congrArg List.length hkeys
          rw [Json.canon, PyValue.eqJson, hlen, beq_self_eq_true, Bool.true_and]
          refine eqEntries_of_forall fun q hq => ?_
          obtain ⟨j, hj, hqj⟩ := eqEntries_canon hv.2 hs q hq
          refine ⟨j, ?_, hqj⟩
          rw [hwf.sort.get?_eq_some_iff]
          exact (Dict.sort_perm _).mem_iff.mpr hj
  | nonFinite t => simp [PyValue.plain] at hv
  | bytes d => simp [PyValue.plain] at hv
  | tuple vs => simp [PyValue.plain] at hv
  | record w => simp [PyValue.plain] at hv
  | foreign n => simp [PyValue.plain] at hv

theorem eqItems_canon {vs : List PyValue} {path : String} {index : Nat} {js : List Json}
    (hv : PyValue.plainItems vs = true) (h : strictItems vs path index = .ok js) :
    PyValue.eqItems vs (Json.canonItems js) = true := by
  cases vs with
  | nil =>
      obtain rfl : [] = js := by simpa [strictItems] using h
      rfl
  | cons v vs =>
      rw [PyValue.plainItems, Bool.and_eq_true] at hv
      obtain ⟨j, js', hj, hs, rfl⟩ := strictItems_cons h
      rw [Json.canonItems, PyValue.eqItems, eqJson_canon hv.1 hj, eqItems_canon hv.2 hs]
      rfl

theorem eqEntries_canon {es : PyDict} {path : String} {js : List (String × Json)}
    (hv : PyValue.plainEntries es = true) (h : strictEntries es path = .ok js) :
    ∀ q ∈ es, ∃ j, (q.1, j) ∈ Json.canonEntries js ∧ q.2.eqJson j = true := by
  cases es with
  | nil => simp
  | cons p es =>
      obtain ⟨k, v⟩ := p
      rw [PyValue.plainEntries, Bool.and_eq_true] at hv
      obtain ⟨j, js', hj, hs, rfl⟩ := strictEntries_cons h
      intro q hq
      rw [Json.canonEntries]
      rcases List.mem_cons.mp hq with rfl | hq
      · exact ⟨j.canon, by simp, eqJson_canon hv.1 hj⟩
      · obtain ⟨i, hi, hqi⟩ := eqEntries_canon hv.2 hs q hq
        exact ⟨i, List.mem_cons_of_mem _ hi, hqi⟩

end

/-- **A plain dictionary equals the document that was stored of it.** -/
theorem eqDict_inlineJson {H : Host} {es : PyDict} {js : List (String × Json)}
    (hes : plainDict es = true) (h : inlineJson H es = .ok js) : eqDict es js = true := by
  unfold inlineJson at h
  cases hs : strictEntries es "$" with
  | error e => simp [hs] at h
  | ok js' =>
      rw [hs] at h
      dsimp only at h
      split at h
      · obtain rfl := Except.ok.inj h
        have hstrict : strictJsonValue (.dict es) "$" = .ok (.obj js') := by
          rw [strictJsonValue, hs]
          rfl
        have heq := eqJson_canon hes hstrict
        rwa [Json.canon, PyValue.eqJson] at heq
      · exact absurd h (by simp)

end VariantOne
