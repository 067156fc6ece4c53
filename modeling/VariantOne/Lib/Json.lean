import Mathlib.Data.String.Basic
import Mathlib.Tactic.IntervalCases
import VariantOne.Lib.Dict

/-!
# JSON values and their canonical text

`Json` is a strict JSON value: no non-finite number, no key that is not a
string.  A finite float is known by the text its shortest representation prints
(`FloatText`), which determines it.

The canonical text of a value is compact and has its keys sorted:
`dumps v = render (canon v)`.  `render` writes the entries in the order they
stand and is *prefix-free* (`render_append_inj`): two values whose texts agree
up to a character that cannot continue a number are the same value.  So the
canonical text determines the value up to the order of its keys
(`dumps_eq_dumps_iff`), which is what makes it fit to be hashed or to be a key.
-/

namespace VariantOne

/-- The characters of a number's text. -/
def isNumberChar (c : Char) : Bool :=
  c.isDigit || c == '-' || c == '+' || c == '.' || c == 'e'

/-- The text of a finite float: number characters, and a point or an exponent
among them, so that it is never the text of an integer. -/
def isFloatText (s : String) : Bool :=
  s.toList.all isNumberChar && s.toList.any fun c => c == '.' || c == 'e'

/-- A finite float, by the text that represents it. -/
structure FloatText where
  /-- The shortest text that reads back as this float. -/
  text : String
  isFloat : isFloatText text = true
  deriving DecidableEq, Repr

/-- A strict JSON value. -/
inductive Json where
  | null
  | bool (b : Bool)
  | int (i : Int)
  | float (x : FloatText)
  | str (s : String)
  | arr (items : List Json)
  | obj (entries : List (String × Json))
  deriving Repr

namespace Json

/-! ## Strings -/

/-- The double quote. -/
def quote : Char := Char.ofNat 34

/-- The backslash. -/
def backslash : Char := Char.ofNat 92

/-- A hexadecimal digit, in lower case. -/
def hexDigit (n : Nat) : Char := Nat.digitChar n

/-- How a character is written between quotes: the quote, the backslash and the
control characters are escaped, everything else stands for itself. -/
def escapeChar (c : Char) : List Char :=
  if c = quote then [backslash, quote]
  else if c = backslash then [backslash, backslash]
  else if c.toNat = 10 then [backslash, 'n']
  else if c.toNat = 13 then [backslash, 'r']
  else if c.toNat = 9 then [backslash, 't']
  else if c.toNat = 12 then [backslash, 'f']
  else if c.toNat = 8 then [backslash, 'b']
  else if c.toNat < 32 then
    [backslash, 'u', '0', '0', hexDigit (c.toNat / 16), hexDigit (c.toNat % 16)]
  else [c]

/-- The characters of a string, escaped. -/
def escape (s : List Char) : List Char := s.flatMap escapeChar

/-- A string between quotes. -/
def quoted (s : String) : List Char := quote :: (escape s.toList ++ [quote])

/-! ## Numbers -/

/-- The decimal text of an integer. -/
def intText (i : Int) : List Char :=
  match i with
  | .ofNat n => Nat.toDigits 10 n
  | .negSucc n => '-' :: Nat.toDigits 10 (n + 1)

/-! ## Values -/

mutual

/-- The compact text of a value, entries in the order they stand. -/
def render : Json → List Char
  | .null => ['n', 'u', 'l', 'l']
  | .bool true => ['t', 'r', 'u', 'e']
  | .bool false => ['f', 'a', 'l', 's', 'e']
  | .int i => intText i
  | .float x => x.text.toList
  | .str s => quoted s
  | .arr [] => ['[', ']']
  | .arr (v :: vs) => '[' :: (render v ++ renderItems vs)
  | .obj [] => ['\x7b', '\x7d']
  | .obj ((k, v) :: es) => '\x7b' :: (quoted k ++ (':' :: (render v ++ renderEntries es)))

/-- The items after the first one, and the closing bracket. -/
def renderItems : List Json → List Char
  | [] => [']']
  | v :: vs => ',' :: (render v ++ renderItems vs)

/-- The entries after the first one, and the closing brace. -/
def renderEntries : List (String × Json) → List Char
  | [] => ['\x7d']
  | (k, v) :: es => ',' :: (quoted k ++ (':' :: (render v ++ renderEntries es)))

end

mutual

/-- The value with the keys of every object sorted. -/
def canon : Json → Json
  | .null => .null
  | .bool b => .bool b
  | .int i => .int i
  | .float x => .float x
  | .str s => .str s
  | .arr vs => .arr (canonItems vs)
  | .obj es => .obj (Dict.sort (canonEntries es))

/-- `canon`, item by item. -/
def canonItems : List Json → List Json
  | [] => []
  | v :: vs => canon v :: canonItems vs

/-- `canon`, entry by entry. -/
def canonEntries : List (String × Json) → List (String × Json)
  | [] => []
  | (k, v) :: es => (k, canon v) :: canonEntries es

end

/-- The canonical text: compact, keys sorted. -/
def dumps (v : Json) : List Char := render (canon v)

/-- The length of a text in bytes of UTF-8. -/
def utf8Length (cs : List Char) : Nat := (cs.map Char.utf8Size).sum

theorem canonItems_eq_map (vs : List Json) : canonItems vs = vs.map canon := by
  induction vs with
  | nil => rfl
  | cons v vs ih => rw [canonItems, ih, List.map_cons]

theorem canonEntries_eq_map (es : List (String × Json)) :
    canonEntries es = es.map fun p => (p.1, canon p.2) := by
  induction es with
  | nil => rfl
  | cons p es ih =>
      obtain ⟨k, v⟩ := p
      rw [canonEntries, ih, List.map_cons]

@[simp] theorem keys_canonEntries (es : List (String × Json)) :
    Dict.keys (canonEntries es) = Dict.keys es := by
  rw [canonEntries_eq_map]
  simp [Dict.keys, Function.comp_def]

/-- Sorting the entries of an object and sorting inside them commute. -/
theorem canonEntries_sort (es : List (String × Json)) :
    canonEntries (Dict.sort es) = Dict.sort (canonEntries es) := by
  rw [canonEntries_eq_map, canonEntries_eq_map]
  exact (Dict.sort_map (fun _ v => canon v) es).symm

mutual

/-- A canonical value is its own canonical form. -/
theorem canon_canon (v : Json) : canon (canon v) = canon v := by
  cases v with
  | arr vs => simp only [canon, canonItems_canonItems vs]
  | obj es => simp only [canon, canonEntries_sort, canonEntries_canonEntries es, Dict.sort_sort]
  | _ => simp only [canon]

theorem canonItems_canonItems (vs : List Json) : canonItems (canonItems vs) = canonItems vs := by
  cases vs with
  | nil => rfl
  | cons v vs => simp only [canonItems, canon_canon v, canonItems_canonItems vs]

theorem canonEntries_canonEntries (es : List (String × Json)) :
    canonEntries (canonEntries es) = canonEntries es := by
  cases es with
  | nil => rfl
  | cons p es =>
      obtain ⟨k, v⟩ := p
      simp only [canonEntries, canon_canon v, canonEntries_canonEntries es]

end

/-! ## The text is prefix-free -/

/-- A text that cannot continue a number. -/
def Stops (x : List Char) : Prop := ∀ c ∈ x.head?, isNumberChar c = false

theorem stops_cons {c : Char} {x : List Char} (h : isNumberChar c = false) : Stops (c :: x) := by
  intro d hd
  rw [List.head?_cons] at hd
  rw [← Option.some_inj.mp hd]
  exact h

/-- Two number texts followed by texts that stop a number are equal when the
whole is. -/
theorem number_append_inj {s t x y : List Char} (hs : ∀ c ∈ s, isNumberChar c = true)
    (ht : ∀ c ∈ t, isNumberChar c = true) (hx : Stops x) (hy : Stops y)
    (h : s ++ x = t ++ y) : s = t ∧ x = y := by
  induction s generalizing t with
  | nil =>
      cases t with
      | nil => exact ⟨rfl, h⟩
      | cons d t =>
          have hd := hx d (by rw [List.nil_append] at h; rw [h]; simp)
          rw [ht d (by simp)] at hd
          exact absurd hd (by simp)
  | cons c s ih =>
      cases t with
      | nil =>
          have hc := hy c (by rw [List.nil_append] at h; rw [← h]; simp)
          rw [hs c (by simp)] at hc
          exact absurd hc (by simp)
      | cons d t =>
          rw [List.cons_append, List.cons_append, List.cons.injEq] at h
          obtain ⟨hst, hxy⟩ := ih (fun c hc => hs c (by simp [hc]))
            (fun c hc => ht c (by simp [hc])) h.2
          exact ⟨by rw [h.1, hst], hxy⟩

theorem isNumberChar_of_isDigit {c : Char} (h : c.isDigit = true) : isNumberChar c = true := by
  simp [isNumberChar, h]

theorem isNumberChar_intText {i : Int} : ∀ c ∈ intText i, isNumberChar c = true := by
  intro c hc
  cases i with
  | ofNat n => exact isNumberChar_of_isDigit (Nat.isDigit_of_mem_toDigits (by decide) (by decide) hc)
  | negSucc n =>
      rcases List.mem_cons.mp hc with rfl | hc
      · decide
      · exact isNumberChar_of_isDigit (Nat.isDigit_of_mem_toDigits (by decide) (by decide) hc)

theorem isNumberChar_floatText (x : FloatText) : ∀ c ∈ x.text.toList, isNumberChar c = true := by
  have h := x.isFloat
  rw [isFloatText, Bool.and_eq_true] at h
  exact fun c hc => List.all_eq_true.mp h.1 c hc

theorem toDigits_injective {m n : Nat} (h : Nat.toDigits 10 m = Nat.toDigits 10 n) : m = n := by
  rw [← Nat.ofDigitChars_toDigits (b := 10) (n := m) (by decide) (by decide), h,
    Nat.ofDigitChars_toDigits (by decide) (by decide)]

theorem toDigits_head_ne_minus {n : Nat} {l : List Char} (h : Nat.toDigits 10 n = '-' :: l) :
    False := by
  have hd : ('-' : Char).isDigit = true :=
    Nat.isDigit_of_mem_toDigits (b := 10) (n := n) (by decide) (by decide) (by rw [h]; simp)
  exact absurd hd (by decide)

theorem intText_injective {i j : Int} (h : intText i = intText j) : i = j := by
  cases i with
  | ofNat m =>
      cases j with
      | ofNat n => rw [toDigits_injective h]
      | negSucc n => exact (toDigits_head_ne_minus h).elim
  | negSucc m =>
      cases j with
      | ofNat n => exact (toDigits_head_ne_minus h.symm).elim
      | negSucc n =>
          have hmn := toDigits_injective (List.cons.inj h).2
          rw [Nat.succ_injective hmn]

/-- The text of a float is never the text of an integer. -/
theorem floatText_ne_intText {x : FloatText} {i : Int} (h : x.text.toList = intText i) : False := by
  have hx := x.isFloat
  rw [isFloatText, Bool.and_eq_true, List.any_eq_true] at hx
  obtain ⟨c, hc, hce⟩ := hx.2
  have hdm : c.isDigit = true ∨ c = '-' := by
    rw [h] at hc
    cases i with
    | ofNat n => exact Or.inl (Nat.isDigit_of_mem_toDigits (by decide) (by decide) hc)
    | negSucc n =>
        rcases List.mem_cons.mp hc with rfl | hc
        · exact Or.inr rfl
        · exact Or.inl (Nat.isDigit_of_mem_toDigits (by decide) (by decide) hc)
  rw [Bool.or_eq_true, beq_iff_eq, beq_iff_eq] at hce
  rcases hce with rfl | rfl <;> revert hdm <;> decide

/-! ### The string code -/

/-- Read back what follows a backslash. -/
def unescapeTail : List Char → Option (Char × List Char)
  | 'n' :: x => some (Char.ofNat 10, x)
  | 'r' :: x => some (Char.ofNat 13, x)
  | 't' :: x => some (Char.ofNat 9, x)
  | 'f' :: x => some (Char.ofNat 12, x)
  | 'b' :: x => some (Char.ofNat 8, x)
  | 'u' :: '0' :: '0' :: a :: b :: x =>
      some (Char.ofNat ((if a = '1' then 16 else 0) +
        (if b.isDigit then b.toNat - 48 else b.toNat - 87)), x)
  | d :: x => some (d, x)
  | [] => none

/-- Read one escaped character back. -/
def unescapeChar : List Char → Option (Char × List Char)
  | [] => none
  | c :: x => if c = backslash then unescapeTail x else some (c, x)

theorem unescapeChar_escape_control (n : Nat) (hn : n < 32) (x : List Char) :
    unescapeChar (escapeChar (Char.ofNat n) ++ x) = some (Char.ofNat n, x) := by
  interval_cases n <;> rfl

theorem unescapeChar_escapeChar (c : Char) (x : List Char) :
    unescapeChar (escapeChar c ++ x) = some (c, x) := by
  by_cases hq : c = quote
  · subst hq
    rfl
  by_cases hb : c = backslash
  · subst hb
    rfl
  by_cases hc : c.toNat < 32
  · have h := unescapeChar_escape_control c.toNat hc x
    rwa [Char.ofNat_toNat] at h
  · have hesc : escapeChar c = [c] := by
      unfold escapeChar
      rw [if_neg hq, if_neg hb, if_neg (by omega), if_neg (by omega), if_neg (by omega),
        if_neg (by omega), if_neg (by omega), if_neg hc]
    rw [hesc, List.singleton_append, unescapeChar, if_neg hb]

/-- An escaped character never starts with the closing quote. -/
theorem escapeChar_ne_quote (c : Char) (x y : List Char) : escapeChar c ++ x ≠ quote :: y := by
  intro h
  have hr := unescapeChar_escapeChar c x
  rw [h] at hr
  have hq : unescapeChar (quote :: y) = some (quote, y) := rfl
  rw [hq] at hr
  have hc : quote = c := (Prod.mk.inj (Option.some.inj hr)).1
  subst hc
  exact absurd (List.cons.inj h).1 (by decide)

theorem escape_append_inj {s t x y : List Char}
    (h : escape s ++ quote :: x = escape t ++ quote :: y) : s = t ∧ x = y := by
  induction s generalizing t with
  | nil =>
      cases t with
      | nil => exact ⟨rfl, (List.cons.inj h).2⟩
      | cons d t =>
          rw [escape, escape, List.flatMap_nil, List.flatMap_cons, List.nil_append,
            List.append_assoc] at h
          exact absurd h.symm (escapeChar_ne_quote d _ _)
  | cons c s ih =>
      cases t with
      | nil =>
          rw [escape, escape, List.flatMap_nil, List.flatMap_cons, List.nil_append,
            List.append_assoc] at h
          exact absurd h (escapeChar_ne_quote c _ _)
      | cons d t =>
          rw [escape, escape, List.flatMap_cons, List.flatMap_cons, List.append_assoc,
            List.append_assoc] at h
          have hc := congrArg unescapeChar h
          rw [unescapeChar_escapeChar, unescapeChar_escapeChar] at hc
          have hp := Prod.mk.inj (Option.some.inj hc)
          obtain ⟨hst, hxy⟩ := ih hp.2
          exact ⟨by rw [hp.1, hst], hxy⟩

theorem quoted_append_inj {s t : String} {x y : List Char}
    (h : quoted s ++ x = quoted t ++ y) : s = t ∧ x = y := by
  rw [quoted, quoted, List.cons_append, List.cons_append, List.append_assoc,
    List.append_assoc] at h
  obtain ⟨hst, hxy⟩ := escape_append_inj (List.cons.inj h).2
  exact ⟨String.toList_injective hst, hxy⟩

/-! ### Values -/

/-- Which constructor a text was written from, by its first character. -/
def headKind (c : Char) : Nat :=
  if c = 'n' then 0 else if c = 't' ∨ c = 'f' then 1 else if c = quote then 2
  else if c = '[' then 4 else if c = '\x7b' then 5 else if c = ']' then 6 else 3

/-- The constructor of a value, integers and floats together. -/
def kind : Json → Nat
  | .null => 0
  | .bool _ => 1
  | .str _ => 2
  | .int _ => 3
  | .float _ => 3
  | .arr _ => 4
  | .obj _ => 5

theorem headKind_of_isNumberChar {c : Char} (h : isNumberChar c = true) : headKind c = 3 := by
  unfold headKind
  split
  · rename_i hc
    rw [hc] at h
    exact absurd h (by decide)
  split
  · rename_i hc
    rcases hc with hc | hc <;> rw [hc] at h <;> exact absurd h (by decide)
  split
  · rename_i hc
    rw [hc] at h
    exact absurd h (by decide)
  split
  · rename_i hc
    rw [hc] at h
    exact absurd h (by decide)
  split
  · rename_i hc
    rw [hc] at h
    exact absurd h (by decide)
  split
  · rename_i hc
    rw [hc] at h
    exact absurd h (by decide)
  rfl

theorem exists_cons_of_number {t : List Char} (hne : t ≠ [])
    (h : ∀ c ∈ t, isNumberChar c = true) : ∃ c l, t = c :: l ∧ headKind c = 3 := by
  obtain ⟨c, l, rfl⟩ := List.exists_cons_of_ne_nil hne
  exact ⟨c, l, rfl, headKind_of_isNumberChar (h c (by simp))⟩

theorem intText_ne_nil (i : Int) : intText i ≠ [] := by
  cases i with
  | ofNat n => exact Nat.toDigits_ne_nil
  | negSucc n => exact List.cons_ne_nil _ _

theorem floatText_ne_nil (x : FloatText) : x.text.toList ≠ [] := by
  intro h
  have hx := x.isFloat
  rw [isFloatText, h] at hx
  exact absurd hx (by decide)

/-- A text starts with a character that tells its constructor. -/
theorem render_head (v : Json) : ∃ c l, render v = c :: l ∧ headKind c = kind v := by
  cases v with
  | null => exact ⟨_, _, by rw [render], rfl⟩
  | bool b => cases b <;> exact ⟨_, _, by rw [render], rfl⟩
  | int i =>
      rw [render]
      exact exists_cons_of_number (intText_ne_nil i) isNumberChar_intText
  | float x =>
      rw [render]
      exact exists_cons_of_number (floatText_ne_nil x) (isNumberChar_floatText x)
  | str s => exact ⟨quote, _, by rw [render, quoted], rfl⟩
  | arr vs => cases vs <;> exact ⟨_, _, by rw [render], rfl⟩
  | obj es =>
      cases es with
      | nil => exact ⟨_, _, by rw [render], rfl⟩
      | cons p es => exact ⟨_, _, by rw [render], rfl⟩

/-- No text starts with a closing bracket. -/
theorem kind_ne_headKind_bracket (v : Json) : kind v ≠ headKind ']' := by
  cases v <;> simp [kind, headKind, quote]

theorem kind_eq_of_render {v w : Json} {x y : List Char}
    (h : render v ++ x = render w ++ y) : kind v = kind w := by
  obtain ⟨c, l, hv, hc⟩ := render_head v
  obtain ⟨d, m, hw, hd⟩ := render_head w
  rw [hv, hw, List.cons_append, List.cons_append] at h
  rw [← hc, ← hd, (List.cons.inj h).1]

theorem stops_renderItems (vs : List Json) (x : List Char) : Stops (renderItems vs ++ x) := by
  cases vs <;> exact stops_cons (by decide)

theorem stops_renderEntries (es : List (String × Json)) (x : List Char) :
    Stops (renderEntries es ++ x) := by
  cases es <;> exact stops_cons (by decide)

mutual

/-- **The text of a value is prefix-free**, up to a character that could
continue a number. -/
theorem render_append_inj (v w : Json) {x y : List Char} (hx : Stops x) (hy : Stops y)
    (h : render v ++ x = render w ++ y) : v = w ∧ x = y := by
  have hk := kind_eq_of_render h
  cases v with
  | null =>
      cases w <;> simp only [kind, reduceCtorEq] at hk
      rw [render] at h
      exact ⟨rfl, List.append_cancel_left h⟩
  | bool b =>
      cases w <;> simp only [kind, reduceCtorEq, Nat.reduceEqDiff] at hk
      rename_i b'
      cases b <;> cases b' <;> simp only [render, List.cons_append, List.nil_append,
        List.cons.injEq] at h
      · exact ⟨rfl, h.2.2.2.2.2⟩
      · exact absurd h.1 (by decide)
      · exact absurd h.1 (by decide)
      · exact ⟨rfl, h.2.2.2.2⟩
  | int i =>
      cases w with
      | int j =>
          rw [render, render] at h
          obtain ⟨hij, hxy⟩ :=
            number_append_inj isNumberChar_intText isNumberChar_intText hx hy h
          exact ⟨by rw [intText_injective hij], hxy⟩
      | float y' =>
          rw [render, render] at h
          have hij :=
            number_append_inj isNumberChar_intText (isNumberChar_floatText y') hx hy h
          exact (floatText_ne_intText hij.1.symm).elim
      | _ => simp only [kind, Nat.reduceEqDiff] at hk
  | float x' =>
      cases w with
      | int j =>
          rw [render, render] at h
          have hij :=
            number_append_inj (isNumberChar_floatText x') isNumberChar_intText hx hy h
          exact (floatText_ne_intText hij.1).elim
      | float y' =>
          rw [render, render] at h
          obtain ⟨hij, hxy⟩ := number_append_inj (isNumberChar_floatText x')
            (isNumberChar_floatText y') hx hy h
          obtain ⟨s, hs⟩ := x'
          obtain ⟨t, ht⟩ := y'
          obtain rfl : s = t := String.toList_injective hij
          exact ⟨rfl, hxy⟩
      | _ => simp only [kind, Nat.reduceEqDiff] at hk
  | str s =>
      cases w <;> simp only [kind, reduceCtorEq, Nat.reduceEqDiff] at hk
      rw [render, render] at h
      obtain ⟨hst, hxy⟩ := quoted_append_inj h
      exact ⟨by rw [hst], hxy⟩
  | arr vs =>
      cases w <;> simp only [kind, reduceCtorEq, Nat.reduceEqDiff] at hk
      rename_i ws
      cases vs with
      | nil =>
          cases ws with
          | nil =>
              rw [render] at h
              exact ⟨rfl, List.append_cancel_left h⟩
          | cons w ws =>
              rw [render, render] at h
              obtain ⟨c, l, hw, hc⟩ := render_head w
              simp only [hw, List.cons_append, List.cons.injEq, true_and] at h
              rw [← h.1] at hc
              exact absurd hc.symm (kind_ne_headKind_bracket w)
      | cons v vs =>
          cases ws with
          | nil =>
              rw [render, render] at h
              obtain ⟨c, l, hv, hc⟩ := render_head v
              simp only [hv, List.cons_append, List.cons.injEq, true_and] at h
              rw [h.1] at hc
              exact absurd hc.symm (kind_ne_headKind_bracket v)
          | cons w ws =>
              rw [render, render, List.cons_append, List.cons_append, List.append_assoc,
                List.append_assoc] at h
              obtain ⟨hvw, htail⟩ := render_append_inj v w (stops_renderItems vs x)
                (stops_renderItems ws y) (List.cons.inj h).2
              obtain ⟨hvs, hxy⟩ := renderItems_append_inj vs ws htail
              exact ⟨by rw [hvw, hvs], hxy⟩
  | obj es =>
      cases w <;> simp only [kind, reduceCtorEq, Nat.reduceEqDiff] at hk
      rename_i fs
      cases es with
      | nil =>
          cases fs with
          | nil =>
              rw [render] at h
              exact ⟨rfl, List.append_cancel_left h⟩
          | cons q fs =>
              obtain ⟨k, w⟩ := q
              rw [render, render, quoted] at h
              simp only [List.cons_append, List.cons.injEq] at h
              exact absurd h.2.1 (by decide)
      | cons p es =>
          obtain ⟨k, v⟩ := p
          cases fs with
          | nil =>
              rw [render, render, quoted] at h
              simp only [List.cons_append, List.cons.injEq] at h
              exact absurd h.2.1 (by decide)
          | cons q fs =>
              obtain ⟨k', w⟩ := q
              rw [render, render, List.cons_append, List.cons_append, List.append_assoc,
                List.append_assoc, List.cons_append, List.cons_append, List.append_assoc,
                List.append_assoc] at h
              obtain ⟨hkk, hrest⟩ := quoted_append_inj (List.cons.inj h).2
              obtain ⟨hvw, htail⟩ := render_append_inj v w (stops_renderEntries es x)
                (stops_renderEntries fs y) (List.cons.inj hrest).2
              obtain ⟨hes, hxy⟩ := renderEntries_append_inj es fs htail
              exact ⟨by rw [hkk, hvw, hes], hxy⟩

theorem renderItems_append_inj (vs ws : List Json) {x y : List Char}
    (h : renderItems vs ++ x = renderItems ws ++ y) : vs = ws ∧ x = y := by
  cases vs with
  | nil =>
      cases ws with
      | nil =>
          rw [renderItems] at h
          exact ⟨rfl, List.append_cancel_left h⟩
      | cons w ws =>
          rw [renderItems, renderItems, List.cons_append, List.cons_append] at h
          exact absurd (List.cons.inj h).1 (by decide)
  | cons v vs =>
      cases ws with
      | nil =>
          rw [renderItems, renderItems, List.cons_append, List.cons_append] at h
          exact absurd (List.cons.inj h).1 (by decide)
      | cons w ws =>
          rw [renderItems, renderItems, List.cons_append, List.cons_append, List.append_assoc,
            List.append_assoc] at h
          obtain ⟨hvw, htail⟩ := render_append_inj v w (stops_renderItems vs x)
            (stops_renderItems ws y) (List.cons.inj h).2
          obtain ⟨hvs, hxy⟩ := renderItems_append_inj vs ws htail
          exact ⟨by rw [hvw, hvs], hxy⟩

theorem renderEntries_append_inj (es fs : List (String × Json)) {x y : List Char}
    (h : renderEntries es ++ x = renderEntries fs ++ y) : es = fs ∧ x = y := by
  cases es with
  | nil =>
      cases fs with
      | nil =>
          rw [renderEntries] at h
          exact ⟨rfl, List.append_cancel_left h⟩
      | cons q fs =>
          obtain ⟨k, w⟩ := q
          rw [renderEntries, renderEntries, List.cons_append, List.cons_append] at h
          exact absurd (List.cons.inj h).1 (by decide)
  | cons p es =>
      obtain ⟨k, v⟩ := p
      cases fs with
      | nil =>
          rw [renderEntries, renderEntries, List.cons_append, List.cons_append] at h
          exact absurd (List.cons.inj h).1 (by decide)
      | cons q fs =>
          obtain ⟨k', w⟩ := q
          rw [renderEntries, renderEntries, List.cons_append, List.cons_append,
            List.append_assoc, List.append_assoc, List.cons_append, List.cons_append,
            List.append_assoc, List.append_assoc] at h
          obtain ⟨hkk, hrest⟩ := quoted_append_inj (List.cons.inj h).2
          obtain ⟨hvw, htail⟩ := render_append_inj v w (stops_renderEntries es x)
            (stops_renderEntries fs y) (List.cons.inj hrest).2
          obtain ⟨hes, hxy⟩ := renderEntries_append_inj es fs htail
          exact ⟨by rw [hkk, hvw, hes], hxy⟩

end

theorem render_injective {v w : Json} (h : render v = render w) : v = w := by
  refine (render_append_inj v w (x := []) (y := []) ?_ ?_ ?_).1
  · simp [Stops]
  · simp [Stops]
  · rw [h]

/-- **Canonical texts are equal exactly when the values are equal up to the order
of their keys.** -/
theorem dumps_eq_dumps_iff {v w : Json} : dumps v = dumps w ↔ canon v = canon w :=
  ⟨render_injective, fun h => by rw [dumps, dumps, h]⟩

end Json
end VariantOne
