import Mathlib.Data.List.DropRight
import VariantOne.Core.Value

/-!
# Cleaned text and identifiers

Every text argument of the store passes through `_text`: stripped of white
space, refused when it is missing, too long or contains a NUL.  What comes out
is a `Text required limit`, which carries those facts, so that a column of that
type cannot hold anything else and cleaning it again changes nothing
(`text_val`).

A fresh identifier is a kind and 32 hexadecimal digits (`newId`); it is clean as
it stands.
-/

namespace VariantOne

/-- White space, as `str.strip` sees it. -/
def isSpace (c : Char) : Bool :=
  let n := c.toNat
  (9 ≤ n && n ≤ 13) || (28 ≤ n && n ≤ 32) || n == 0x85 || n == 0xa0 || n == 0x1680 ||
    (0x2000 ≤ n && n ≤ 0x200a) || n == 0x2028 || n == 0x2029 || n == 0x202f || n == 0x205f ||
    n == 0x3000

/-- The characters between the first and the last that are not white space. -/
def stripChars (cs : List Char) : List Char := (cs.dropWhile isSpace).rdropWhile isSpace

/-- `s.strip()`: the string itself when there is nothing to strip. -/
def strip (s : String) : String :=
  if stripChars s.toList = s.toList then s else String.ofList (stripChars s.toList)

theorem strip_eq (s : String) : strip s = String.ofList (stripChars s.toList) := by
  unfold strip
  split
  · rename_i h
    rw [h, String.ofList_toList]
  · rfl

theorem stripChars_stripChars (cs : List Char) : stripChars (stripChars cs) = stripChars cs := by
  have hdrop : (stripChars cs).dropWhile isSpace = stripChars cs := by
    rw [List.dropWhile_eq_self_iff]
    intro hpos
    have hpre : stripChars cs <+: cs.dropWhile isSpace := List.rdropWhile_prefix _ _
    have hlen : 0 < (cs.dropWhile isSpace).length := lt_of_lt_of_le hpos hpre.length_le
    have hhead := List.dropWhile_get_zero_not isSpace cs hlen
    rw [hpre.getElem hpos]
    exact hhead
  conv_lhs => rw [stripChars, hdrop]
  exact List.rdropWhile_idempotent _ _

@[simp] theorem strip_strip (s : String) : strip (strip s) = strip s := by
  rw [strip_eq (strip s), strip_eq s, String.toList_ofList, stripChars_stripChars]

/-- A text without white space is its own strip. -/
theorem strip_of_forall {s : String} (h : ∀ c ∈ s.toList, isSpace c = false) : strip s = s := by
  rw [strip_eq, stripChars]
  have hdrop : s.toList.dropWhile isSpace = s.toList := by
    rw [List.dropWhile_eq_self_iff]
    intro hpos
    rw [h _ (List.getElem_mem hpos)]
    simp
  have hrdrop : s.toList.rdropWhile isSpace = s.toList := by
    rw [List.rdropWhile_eq_self_iff]
    intro hne
    rw [h _ (List.getLast_mem hne)]
    simp
  rw [hdrop, hrdrop, String.ofList_toList]

/-- `value[:limit]` -/
def clip (value : String) (limit : Nat) : String := String.ofList (value.toList.take limit)

/-- A cleaned text: stripped, at most `limit` characters, no NUL, and not empty
when it is required. -/
structure Text (required : Bool) (limit : Nat) where
  val : String
  stripped : strip val = val
  short : val.length ≤ limit
  noNul : Char.ofNat 0 ∉ val.toList
  present : required = true → val ≠ ""
  deriving DecidableEq

theorem Text.ext_val {required : Bool} {limit : Nat} {t u : Text required limit}
    (h : t.val = u.val) : t = u := by
  obtain ⟨t, _⟩ := t
  obtain ⟨u, _⟩ := u
  obtain rfl : t = u := h
  rfl

/-- A `ValueError`. -/
def valueError (message : String) : Raised := ⟨.valueError, message⟩

/-- `_text(value, field, required=…, limit=…)` -/
def text (value field : String) (required : Bool) (limit : Nat) :
    Except Raised (Text required limit) :=
  if hpresent : required = true ∧ strip value = "" then
    .error (valueError s!"{field} is required")
  else if hshort : limit < (strip value).length then
    .error (valueError s!"{field} exceeds {limit} characters")
  else if hnul : Char.ofNat 0 ∈ (strip value).toList then
    .error (valueError s!"{field} contains a NUL character")
  else
    .ok ⟨strip value, strip_strip value, not_lt.mp hshort, hnul, fun hr he => hpresent ⟨hr, he⟩⟩

theorem val_of_text {value field : String} {required : Bool} {limit : Nat}
    {t : Text required limit} (h : text value field required limit = .ok t) :
    t.val = strip value := by
  unfold text at h
  split at h
  · exact absurd h (by simp)
  split at h
  · exact absurd h (by simp)
  split at h
  · exact absurd h (by simp)
  rw [← Except.ok.inj h]

/-- **Cleaning a cleaned text changes nothing.** -/
theorem text_val {required : Bool} {limit : Nat} (t : Text required limit) (field : String) :
    text t.val field required limit = .ok t := by
  unfold text
  rw [dif_neg (by rw [t.stripped]; exact fun h => t.present h.1 h.2),
    dif_neg (by rw [t.stripped]; exact not_lt.mpr t.short),
    dif_neg (by rw [t.stripped]; exact t.noNul)]
  exact congrArg Except.ok (Text.ext_val t.stripped)

/-- The empty text, where none is required. -/
def Text.none (limit : Nat) : Text false limit := ⟨"", rfl, Nat.zero_le _, by decide, by simp⟩

/-! ## Fresh identifiers -/

/-- `uuid.uuid4().hex`: 32 hexadecimal digits. -/
def uuidHex (u : BitVec 128) : List Char :=
  (List.range 32).map fun i => Nat.digitChar (u.toNat / 16 ^ (31 - i) % 16)

/-- `_new_id(kind)` -/
def newId (kind : String) (u : BitVec 128) : String := kind ++ "_" ++ String.ofList (uuidHex u)

theorem toList_newId (u : BitVec 128) :
    (newId "job" u).toList = ['j', 'o', 'b', '_'] ++ uuidHex u := by
  rw [newId, String.toList_append, String.toList_ofList]
  rfl

theorem digitChar_lt_sixteen {n : Nat} (h : n < 16) :
    isSpace (Nat.digitChar n) = false ∧ Nat.digitChar n ≠ Char.ofNat 0 := by
  interval_cases n <;> decide

/-- The identifier of a new job is a clean text. -/
def newJobId (u : BitVec 128) : Text true 512 where
  val := newId "job" u
  stripped := by
    refine strip_of_forall fun c hc => ?_
    rw [toList_newId, List.mem_append] at hc
    rcases hc with hc | hc
    · simp only [List.mem_cons, List.not_mem_nil, or_false] at hc
      rcases hc with rfl | rfl | rfl | rfl <;> decide
    · obtain ⟨i, -, rfl⟩ := List.mem_map.mp hc
      exact (digitChar_lt_sixteen (Nat.mod_lt _ (by decide))).1
  short := by
    rw [← String.length_toList, toList_newId]
    simp [uuidHex]
  noNul := by
    intro hc
    rw [toList_newId, List.mem_append] at hc
    rcases hc with hc | hc
    · exact absurd hc (by decide)
    · obtain ⟨i, -, hi⟩ := List.mem_map.mp hc
      exact (digitChar_lt_sixteen (Nat.mod_lt _ (by decide))).2 hi
  present := by
    intro _ h
    have hl := congrArg String.toList h
    rw [toList_newId] at hl
    exact absurd hl (by simp)

end VariantOne
