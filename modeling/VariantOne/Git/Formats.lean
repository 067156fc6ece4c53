import VariantOne.Git.Records

/-!
# Git's formats are read as they are written

The four readers return the records of a stream in their order: `parseStatus_stream`, `parseRawDiff_stream`,
`parseNumstat_stream` and `worktrees_stream`, each from what a reader makes of the tokens of one record.

`formats_exact` says this, that `diff` gives each file the counts of its own record, and what a stream that is
cut is read as.

Each reader is first shown to read one record from its tokens, whatever follows; the stream is then an
induction over the records.  Names are arbitrary bytes without NUL, so what `Surrogates` says about ASCII
bytes is needed wherever a name stands beside a separator.
-/

namespace VariantOne
namespace Git

open Surrogates (decode point)

/-! ## 1.  Texts and numbers -/

theorem decode_lines {b : UInt8} (hb : b.toNat < 0x80) (fields : List Bytes) (last : Bytes) :
    decode (Lines.lines b fields ++ last) =
      Lines.lines (point b) (fields.map decode) ++ decode last := by
  induction fields with
  | nil => rfl
  | cons f fields ih =>
      rw [Lines.lines_cons, List.append_assoc, List.cons_append, Surrogates.decode_append_ascii hb, ih,
        List.map_cons, Lines.lines_cons, List.append_assoc, List.cons_append]

theorem normalPath_decode (path : Bytes) : normalPath (decode path) = decode (slashed path) :=
  (Surrogates.decode_map_ascii (by decide) (by decide) path).symm

theorem fieldsOf_lines {fields : List Bytes} (h : ∀ f ∈ fields, space ∉ f) (last : Bytes) :
    fieldsOf fields.length (decode (Lines.lines space fields ++ last)) =
      fields.map decode ++ [decode last] := by
  have hpoint : ∀ f ∈ fields.map decode, point space ∉ f := by
    intro f hf
    obtain ⟨bytes, hbytes, rfl⟩ := List.mem_map.mp hf
    exact fun hmem => h bytes hbytes ((Surrogates.point_mem_decode_iff (by decide)).mp hmem)
  have hsplit := Fields.splitMax_lines hpoint (decode last)
  rw [List.length_map] at hsplit
  rw [fieldsOf, decode_lines (by decide), hsplit]

theorem not_truncated_lines (ls : List Bytes) : ¬ Truncated (Lines.lines nul ls) := by
  rintro ⟨hne, hlast⟩
  rcases List.eq_nil_or_concat ls with rfl | ⟨init, l, rfl⟩
  · exact hne rfl
  · refine hlast ?_
    rw [List.concat_eq_append, Lines.lines, List.map_append, List.flatten_append]
    simp

theorem splitOn_stream {ls : List Bytes} (h : ∀ l ∈ ls, nul ∉ l) :
    (Lines.lines nul ls).splitOn nul = ls ++ [[]] := by
  have hsplit : (Lines.lines nul ls ++ []).splitOn nul = ls ++ [[]] :=
    Fields.splitOn_lines h List.not_mem_nil
  rw [List.append_nil] at hsplit
  exact hsplit

/-! ## 2.  Status -/

theorem lineKind?_token (b : UInt8) (text : CodeText) :
    lineKind? (point b :: point space :: text) =
      if b = 0x23 then some .header
      else if b = 0x31 then some .ordinary
      else if b = 0x32 then some .moved
      else if b = 0x75 then some .unmerged
      else if b = 0x3F then some .untracked
      else if b = 0x21 then some .ignored
      else none := by
  have hfront : ∀ c : UInt8, [point c, point space] <+:
      point b :: point space :: text ↔ b = c := by
    intro c
    rw [List.cons_prefix_cons, List.cons_prefix_cons, Surrogates.point_injective.eq_iff]
    exact ⟨fun h => h.1.symm, fun h => ⟨h.symm, rfl, List.nil_prefix⟩⟩
  unfold lineKind?
  rw [show lit "# " = [point 0x23, point space] from rfl,
    show lit "1 " = [point 0x31, point space] from rfl,
    show lit "2 " = [point 0x32, point space] from rfl,
    show lit "u " = [point 0x75, point space] from rfl,
    show lit "? " = [point 0x3F, point space] from rfl,
    show lit "! " = [point 0x21, point space] from rfl]
  simp only [hfront]

/-- A token that starts with a tag. -/
theorem decode_tagged {tag : UInt8} (htag : tag.toNat < 0x80) (fields : List Bytes) (last : Bytes) :
    decode (Lines.lines space ([tag] :: fields) ++ last) =
      point tag :: point space :: decode (Lines.lines space fields ++ last) := by
  rw [decode_lines (by decide), List.map_cons, Lines.lines_cons, Surrogates.decode_cons_ascii htag,
    decode_lines (by decide)]
  rfl

theorem decode_letters (c : Changed) :
    decode [c.index.byte, c.worktree.byte] = [point c.index.byte, point c.worktree.byte] :=
  Surrogates.decode_ascii fun b hb => by
    rcases List.mem_cons.mp hb with rfl | hb
    · exact c.index.ascii
    · rw [List.mem_singleton.mp hb]
      exact c.worktree.ascii

theorem letters (c : Changed) (otherwise : String) :
    letter (decode [c.index.byte, c.worktree.byte]) otherwise = [point c.index.byte] ∧
      letter ((decode [c.index.byte, c.worktree.byte]).drop 1) otherwise =
        [point c.worktree.byte] := by
  rw [decode_letters]
  exact ⟨rfl, rfl⟩

theorem Changed.space_notMem (c : Changed) : ∀ f ∈ c.fields, space ∉ f := by
  intro f hf
  simp only [fields, List.mem_cons, List.not_mem_nil, or_false] at hf
  rcases hf with rfl | rfl | rfl | rfl | rfl | rfl | rfl
  · simp [c.index.ne_space.symm, c.worktree.ne_space.symm]
  · exact c.submodule.space_notMem
  · exact c.headMode.space_notMem
  · exact c.indexMode.space_notMem
  · exact c.worktreeMode.space_notMem
  · exact c.headOid.space_notMem
  · exact c.indexOid.space_notMem

theorem Changed.space_notMem_unmerged (c : Changed) (thirdMode thirdOid : Word) :
    ∀ f ∈ c.unmergedFields thirdMode thirdOid, space ∉ f := by
  intro f hf
  have hfields : f ∈ c.fields ∨ f = thirdMode.bytes ∨ f = thirdOid.bytes := by
    simp only [unmergedFields, fields, List.mem_cons, List.not_mem_nil, or_false] at hf ⊢
    tauto
  rcases hfields with hf | rfl | rfl
  · exact c.space_notMem f hf
  · exact thirdMode.space_notMem
  · exact thirdOid.space_notMem

theorem lineKind?_tagged {tag : UInt8} (htag : tag.toNat < 0x80) {fields : List Bytes} {last : Bytes}
    {kind : LineKind} (hkind : ∀ text, lineKind? (point tag :: point space :: text) = some kind) :
    lineKind? (decode (Lines.lines space ([tag] :: fields) ++ last)) = some kind := by
  rw [decode_tagged htag]
  exact hkind _

section Lines

variable {token : Bytes} {rest : List Bytes} {s s' : StatusLines}

theorem readStatus_header (hkind : lineKind? (decode token) = some .header) :
    readStatus (token :: rest) s = readStatus rest (s.addHeader (decode token)) := by
  cases token with
  | nil => cases hkind
  | cons b token =>
      rw [readStatus.eq_def]
      dsimp only
      rw [hkind]

theorem readStatus_ordinary (hkind : lineKind? (decode token) = some .ordinary) {entry : StatusEntry}
    (hentry : ordinaryEntry (fieldsOf 8 (decode token)) = some entry) :
    readStatus (token :: rest) s = readStatus rest (s.1, s.2 ++ [entry]) := by
  cases token with
  | nil => cases hkind
  | cons b token =>
      rw [readStatus.eq_def]
      dsimp only
      rw [hkind, hentry]
      rfl

theorem readStatus_moved (hkind : lineKind? (decode token) = some .moved) {original : Bytes}
    {entry : StatusEntry}
    (hentry : movedEntry (decode original) (fieldsOf 9 (decode token)) = some entry) :
    readStatus (token :: original :: rest) s = readStatus rest (s.1, s.2 ++ [entry]) := by
  cases token with
  | nil => cases hkind
  | cons b token =>
      rw [readStatus.eq_def]
      dsimp only
      rw [hkind]
      dsimp only
      rw [hentry]
      rfl

theorem readStatus_unmerged (hkind : lineKind? (decode token) = some .unmerged) {entry : StatusEntry}
    (hentry : unmergedEntry (fieldsOf 10 (decode token)) = some entry) :
    readStatus (token :: rest) s = readStatus rest (s.1, s.2 ++ [entry]) := by
  cases token with
  | nil => cases hkind
  | cons b token =>
      rw [readStatus.eq_def]
      dsimp only
      rw [hkind, hentry]
      rfl

theorem readStatus_untracked (hkind : lineKind? (decode token) = some .untracked) :
    readStatus (token :: rest) s =
      readStatus rest (s.1, s.2 ++ [pathEntry .untracked "?" (decode token)]) := by
  cases token with
  | nil => cases hkind
  | cons b token =>
      rw [readStatus.eq_def]
      dsimp only
      rw [hkind]

theorem readStatus_ignored (hkind : lineKind? (decode token) = some .ignored) :
    readStatus (token :: rest) s =
      readStatus rest (s.1, s.2 ++ [pathEntry .ignored "!" (decode token)]) := by
  cases token with
  | nil => cases hkind
  | cons b token =>
      rw [readStatus.eq_def]
      dsimp only
      rw [hkind]

end Lines

theorem ordinaryEntry_fields (c : Changed) (path : Bytes) :
    ordinaryEntry (fieldsOf 8 (decode (Lines.lines space ([0x31] :: c.fields) ++ path))) =
      some (c.entry .ordinary path []) := by
  have hfields : fieldsOf 8 (decode (Lines.lines space ([0x31] :: c.fields) ++ path)) =
      ([0x31] :: c.fields).map decode ++ [decode path] :=
    fieldsOf_lines (List.forall_mem_cons.mpr ⟨by decide, c.space_notMem⟩) path
  rw [hfields]
  show some _ = some _
  rw [(letters c ".").1, (letters c ".").2, normalPath_decode]
  rfl

theorem movedEntry_fields (c : Changed) (score : Word) (path original : Bytes) :
    movedEntry (decode original)
        (fieldsOf 9 (decode (Lines.lines space ([0x32] :: (c.fields ++ [score.bytes])) ++ path))) =
      some (c.entry (if c.index.byte = 0x52 ∨ c.worktree.byte = 0x52 then .renamed else .copied)
        path original) := by
  have hspace : ∀ f ∈ [0x32] :: (c.fields ++ [score.bytes]), space ∉ f := by
    refine List.forall_mem_cons.mpr ⟨by decide, fun f hf => ?_⟩
    rcases List.mem_append.mp hf with hf | hf
    · exact c.space_notMem f hf
    · rw [List.mem_singleton.mp hf]
      exact score.space_notMem
  have hfields : fieldsOf 9 (decode (Lines.lines space ([0x32] :: (c.fields ++ [score.bytes])) ++ path)) =
      ([0x32] :: (c.fields ++ [score.bytes])).map decode ++ [decode path] := fieldsOf_lines hspace path
  have hletter : ∀ b : UInt8, [point b] = lit "R" ↔ b = 0x52 := fun b => by
    rw [show lit "R" = [point 0x52] from rfl, List.singleton_inj, Surrogates.point_injective.eq_iff]
  rw [hfields]
  show some _ = some _
  rw [(letters c ".").1, (letters c ".").2, normalPath_decode, normalPath_decode, decode_letters]
  show some (Changed.entry c (if [point c.index.byte] = lit "R" ∨ [point c.worktree.byte] = lit "R" then
    .renamed else .copied) path original) = _
  simp only [hletter]

theorem unmergedEntry_fields (c : Changed) (thirdMode thirdOid : Word) (path : Bytes) :
    unmergedEntry (fieldsOf 10
        (decode (Lines.lines space ([0x75] :: c.unmergedFields thirdMode thirdOid) ++ path))) =
      some (c.entry .unmerged path []) := by
  have hfields : fieldsOf 10
      (decode (Lines.lines space ([0x75] :: c.unmergedFields thirdMode thirdOid) ++ path)) =
      ([0x75] :: c.unmergedFields thirdMode thirdOid).map decode ++ [decode path] :=
    fieldsOf_lines (List.forall_mem_cons.mpr ⟨by decide, c.space_notMem_unmerged thirdMode thirdOid⟩) path
  rw [hfields]
  show some _ = some _
  rw [(letters c "U").1, (letters c "U").2, normalPath_decode]
  rfl

theorem pathEntry_tagged {tag : UInt8} (htag : tag.toNat < 0x80) (path : PathName) (recordType : RecordType)
    (status : String) :
    pathEntry recordType status (decode (Lines.lines space [[tag]] ++ path.bytes)) =
      path.entry recordType status := by
  have hdrop : (decode (Lines.lines space [[tag]] ++ path.bytes)).drop 2 = decode path.bytes := by
    rw [decode_tagged htag]
    rfl
  rw [pathEntry, hdrop, normalPath_decode]
  rfl

theorem addHeader_tagged (s : StatusLines) (key : Word) (value : Plain) :
    s.addHeader (decode (Lines.lines space [[0x23], key.bytes] ++ value.bytes)) =
      (Dict.set s.1 (decode key.bytes) (decode value.bytes), s.2) := by
  have hdrop : (decode (Lines.lines space [[0x23], key.bytes] ++ value.bytes)).drop 2 =
      decode key.bytes ++ point space :: decode value.bytes := by
    rw [decode_tagged (by decide), ← Surrogates.decode_append_ascii (by decide)]
    show decode (key.bytes ++ [space] ++ [] ++ value.bytes) = _
    rw [List.append_nil, List.append_assoc]
    rfl
  have hkey : point space ∉ decode key.bytes := fun h =>
    key.space_notMem ((Surrogates.point_mem_decode_iff (by decide)).mp h)
  rw [StatusLines.addHeader, hdrop, Fields.cut_append hkey]
  rfl

/-- **A record is read** from its tokens. -/
theorem readStatus_tokens (r : StatusRecord) (rest : List Bytes) (s : StatusLines) :
    readStatus (r.tokens ++ rest) s =
      readStatus rest (Dict.merge s.1 r.header?.toList, s.2 ++ r.statusEntry.toList) := by
  cases r with
  | header key value =>
      refine (readStatus_header (lineKind?_tagged (by decide) (lineKind?_token 0x23))).trans ?_
      show _ = readStatus rest (Dict.set s.1 (decode key.bytes) (decode value.bytes), s.2 ++ [])
      rw [addHeader_tagged, List.append_nil]
      rfl
  | ordinary c path =>
      exact readStatus_ordinary (lineKind?_tagged (by decide) (lineKind?_token 0x31))
        (ordinaryEntry_fields c path.bytes)
  | moved c score path original =>
      exact readStatus_moved (lineKind?_tagged (by decide) (lineKind?_token 0x32))
        (movedEntry_fields c score path.bytes original.bytes)
  | unmerged c thirdMode thirdOid path =>
      exact readStatus_unmerged (lineKind?_tagged (by decide) (lineKind?_token 0x75))
        (unmergedEntry_fields c thirdMode thirdOid path.bytes)
  | untracked path =>
      refine (readStatus_untracked (lineKind?_tagged (by decide) (lineKind?_token 0x3F))).trans ?_
      rw [pathEntry_tagged (by decide)]
      rfl
  | ignored path =>
      refine (readStatus_ignored (lineKind?_tagged (by decide) (lineKind?_token 0x21))).trans ?_
      rw [pathEntry_tagged (by decide)]
      rfl

theorem Letter.not_mem {c : Letter} {c' : Letter} : nul ∉ [c.byte, c'.byte] := by
  simp [c.ne_nul.symm, c'.ne_nul.symm]

theorem nul_notMem_lines {sep : UInt8} (hsep : nul ≠ sep) {fields : List Bytes} (h : ∀ f ∈ fields, nul ∉ f)
    {last : Bytes} (hlast : nul ∉ last) : nul ∉ Lines.lines sep fields ++ last := by
  induction fields with
  | nil => exact hlast
  | cons f fields ih =>
      rw [Lines.lines_cons, List.append_assoc, List.cons_append, List.mem_append, List.mem_cons]
      rintro (hmem | heq | hmem)
      · exact h f List.mem_cons_self hmem
      · exact hsep heq
      · exact ih (fun f hf => h f (List.mem_cons_of_mem _ hf)) hmem

theorem Changed.nul_notMem (c : Changed) : ∀ f ∈ c.fields, nul ∉ f := by
  intro f hf
  simp only [fields, List.mem_cons, List.not_mem_nil, or_false] at hf
  rcases hf with rfl | rfl | rfl | rfl | rfl | rfl | rfl
  · exact Letter.not_mem
  · exact c.submodule.nul_notMem
  · exact c.headMode.nul_notMem
  · exact c.indexMode.nul_notMem
  · exact c.worktreeMode.nul_notMem
  · exact c.headOid.nul_notMem
  · exact c.indexOid.nul_notMem

theorem Changed.nul_notMem_unmerged (c : Changed) (thirdMode thirdOid : Word) :
    ∀ f ∈ c.unmergedFields thirdMode thirdOid, nul ∉ f := by
  intro f hf
  have hfields : f ∈ c.fields ∨ f = thirdMode.bytes ∨ f = thirdOid.bytes := by
    simp only [unmergedFields, fields, List.mem_cons, List.not_mem_nil, or_false] at hf ⊢
    tauto
  rcases hfields with hf | rfl | rfl
  · exact c.nul_notMem f hf
  · exact thirdMode.nul_notMem
  · exact thirdOid.nul_notMem

theorem nul_notMem_tagged {tag : UInt8} (htag : nul ≠ tag) {fields : List Bytes} (h : ∀ f ∈ fields, nul ∉ f)
    (last : Plain) : nul ∉ Lines.lines space ([tag] :: fields) ++ last.bytes :=
  nul_notMem_lines (by decide)
    (List.forall_mem_cons.mpr ⟨fun hmem => htag (List.mem_singleton.mp hmem), h⟩) last.nul_notMem

theorem StatusRecord.nul_notMem (r : StatusRecord) : ∀ t ∈ r.tokens, nul ∉ t := by
  cases r with
  | header key value =>
      refine List.forall_mem_singleton.mpr (nul_notMem_tagged (by decide) (fun f hf => ?_) value)
      rw [List.mem_singleton.mp hf]
      exact key.nul_notMem
  | ordinary c path =>
      exact List.forall_mem_singleton.mpr (nul_notMem_tagged (by decide) c.nul_notMem path.toPlain)
  | moved c score path original =>
      refine List.forall_mem_cons.mpr ⟨nul_notMem_tagged (by decide) (fun f hf => ?_) path.toPlain,
        List.forall_mem_singleton.mpr original.nul_notMem⟩
      rcases List.mem_append.mp hf with hf | hf
      · exact c.nul_notMem f hf
      · rw [List.mem_singleton.mp hf]
        exact score.nul_notMem
  | unmerged c thirdMode thirdOid path =>
      exact List.forall_mem_singleton.mpr
        (nul_notMem_tagged (by decide) (c.nul_notMem_unmerged thirdMode thirdOid) path.toPlain)
  | untracked path =>
      exact List.forall_mem_singleton.mpr
        (nul_notMem_tagged (by decide) (List.forall_mem_nil _) path.toPlain)
  | ignored path =>
      exact List.forall_mem_singleton.mpr
        (nul_notMem_tagged (by decide) (List.forall_mem_nil _) path.toPlain)

theorem foldl_statusLines (rs : List StatusRecord) (s : StatusLines) :
    rs.foldl (fun s r => (Dict.merge s.1 r.header?.toList, s.2 ++ r.statusEntry.toList)) s =
      (Dict.merge s.1 (rs.filterMap StatusRecord.header?), s.2 ++ rs.filterMap StatusRecord.statusEntry) := by
  induction rs generalizing s with
  | nil => simp [Dict.merge]
  | cons r rs ih =>
      rw [List.foldl_cons, ih]
      refine Prod.ext ?_ ?_
      · cases h : r.header? with
        | none => rw [List.filterMap_cons_none h]; rfl
        | some p => rw [List.filterMap_cons_some h]; rfl
      · cases h : r.statusEntry with
        | none => rw [List.filterMap_cons_none h]; simp
        | some e => rw [List.filterMap_cons_some h]; simp

/-- **Status is read as it is written.** -/
theorem parseStatus_stream (rs : List StatusRecord) :
    parseStatus (stream StatusRecord.tokens rs) = .ok (statusLines rs) := by
  have htokens : ∀ t ∈ rs.flatMap StatusRecord.tokens, nul ∉ t := fun t ht => by
    obtain ⟨r, -, hr⟩ := List.mem_flatMap.mp ht
    exact r.nul_notMem t hr
  rw [parseStatus, stream, if_neg (not_truncated_lines _), splitOn_stream htokens,
    Fields.reads_records readStatus (fun r _ => readStatus_tokens r), foldl_statusLines]
  rfl

/-! ## 3.  Numbers -/

theorem int?_digits {κ : Type} [DecidableEq κ] {N : Numerals κ} {symbol : Fin 10 → κ}
    (hdigit : ∀ d, N.digit (symbol d) = some d.val) (hblank : ∀ d, N.blank (symbol d) = false)
    (hsign : ∀ d, symbol d ≠ N.plus ∧ symbol d ≠ N.minus ∧ symbol d ≠ N.underscore)
    {digits : List (Fin 10)} (hne : digits ≠ []) :
    N.int? (digits.map symbol) = some (numeral digits : Int) := by
  have hdigits : ∀ digits : List (Fin 10), (digits.map symbol).mapM N.digit = some (digits.map Fin.val) := by
    intro digits
    induction digits with
    | nil => rfl
    | cons d digits ih =>
        rw [List.map_cons, List.mapM_cons, hdigit, ih]
        rfl
  have hunderscore : N.underscore ∉ digits.map symbol := fun h => by
    obtain ⟨d, -, hd⟩ := List.mem_map.mp h
    exact (hsign d).2.2 hd
  have hnatural : N.natural? (digits.map symbol) = some (numeral digits) := by
    rw [Numerals.natural?, List.splitOn_eq_singleton hunderscore]
    simp only [List.mapM_cons, List.mapM_nil, List.map_eq_nil_iff, if_neg hne, hdigits, Option.pure_def,
      Option.bind_eq_bind, Option.bind_some, Option.map_some, List.flatten_cons, List.flatten_nil,
      List.append_nil, List.foldl_map]
    rfl
  have hstrip : ((digits.map symbol).dropWhile N.blank).rdropWhile N.blank = digits.map symbol := by
    have hfront : (digits.map symbol).dropWhile N.blank = digits.map symbol := by
      cases digits with
      | nil => rfl
      | cons d digits => rw [List.map_cons, List.dropWhile_cons_of_neg (by rw [hblank]; decide)]
    rw [hfront, List.rdropWhile_eq_self_iff]
    intro hlast
    obtain ⟨d, -, hd⟩ := List.mem_map.mp (List.getLast_mem hlast)
    rw [← hd, hblank]
    decide
  rw [Numerals.int?, hstrip]
  cases digits with
  | nil => exact absurd rfl hne
  | cons d digits =>
      rw [List.map_cons] at hnatural ⊢
      dsimp only
      rw [if_neg (hsign d).1, if_neg (hsign d).2.1, hnatural]
      rfl

/-- The digits are digits of bytes and of texts, and nothing else. -/
theorem byteDigits :
    (∀ d : Fin 10, byteNumerals.digit (UInt8.ofNat (0x30 + d)) = some d.val) ∧
      (∀ d : Fin 10, byteNumerals.blank (UInt8.ofNat (0x30 + d)) = false) ∧
      ∀ d : Fin 10, UInt8.ofNat (0x30 + d) ≠ byteNumerals.plus ∧ UInt8.ofNat (0x30 + d) ≠ byteNumerals.minus ∧
        UInt8.ofNat (0x30 + d) ≠ byteNumerals.underscore := by
  decide

theorem byteDigits_text :
    (∀ d : Fin 10, textNumerals.digit (point (UInt8.ofNat (0x30 + d))) = some d.val) ∧
      (∀ d : Fin 10, textNumerals.blank (point (UInt8.ofNat (0x30 + d))) = false) ∧
      ∀ d : Fin 10, point (UInt8.ofNat (0x30 + d)) ≠ textNumerals.plus ∧
        point (UInt8.ofNat (0x30 + d)) ≠ textNumerals.minus ∧
        point (UInt8.ofNat (0x30 + d)) ≠ textNumerals.underscore := by
  decide

theorem intOrZero_bytes {digits : List (Fin 10)} (hne : digits ≠ []) :
    byteNumerals.intOrZero (digitBytes digits) = .ok (numeral digits) := by
  have hread : byteNumerals.int? (digitBytes digits) = some (numeral digits : Int) :=
    int?_digits byteDigits.1 byteDigits.2.1 byteDigits.2.2 hne
  have hnil : digitBytes digits ≠ [] := fun h => hne (List.map_eq_nil_iff.mp h)
  rw [Numerals.intOrZero, if_neg hnil, hread]

theorem intOrZero_text (digits : List (Fin 10)) :
    textNumerals.intOrZero ((digitBytes digits).map point) = .ok (numeral digits) := by
  by_cases hne : digits = []
  · rw [hne]
    rfl
  · have hread : textNumerals.int? ((digitBytes digits).map point) = some (numeral digits : Int) := by
      rw [digitBytes, List.map_map]
      exact int?_digits byteDigits_text.1 byteDigits_text.2.1 byteDigits_text.2.2 hne
    have hnil : (digitBytes digits).map point ≠ [] := fun h =>
      hne (List.map_eq_nil_iff.mp (List.map_eq_nil_iff.mp h))
    rw [Numerals.intOrZero, if_neg hnil, hread]

/-! ## 4.  Differences -/

theorem ascii_digitBytes {digits : List (Fin 10)} : ∀ b ∈ digitBytes digits, b.toNat < 0x80 := by
  intro b hb
  obtain ⟨d, -, rfl⟩ := List.mem_map.mp hb
  have hall : ∀ d : Fin 10, (UInt8.ofNat (0x30 + d.val)).toNat < 0x80 := by decide
  exact hall d

theorem notMem_digitBytes {digits : List (Fin 10)} {b : UInt8}
    (h : ∀ d : Fin 10, UInt8.ofNat (0x30 + d.val) ≠ b) : b ∉ digitBytes digits := fun hb => by
  obtain ⟨d, -, hd⟩ := List.mem_map.mp hb
  exact h d hd

theorem RawChange.letter_spec (c : RawChange) :
    c.letter.toNat < 0x80 ∧ c.letter ≠ nul ∧ c.letter ≠ space := by
  cases c with
  | plain kind notMoved path => exact ⟨kind.ascii, kind.ne_nul, kind.ne_space⟩
  | moved copied original path =>
      cases copied
      · show (0x52 : UInt8).toNat < 0x80 ∧ (0x52 : UInt8) ≠ nul ∧ (0x52 : UInt8) ≠ space
        decide
      · show (0x43 : UInt8).toNat < 0x80 ∧ (0x43 : UInt8) ≠ nul ∧ (0x43 : UInt8) ≠ space
        decide

theorem decode_status (c : RawChange) (digits : List (Fin 10)) :
    decode (c.letter :: digitBytes digits) = point c.letter :: (digitBytes digits).map point := by
  rw [Surrogates.decode_cons_ascii c.letter_spec.1, Surrogates.decode_ascii ascii_digitBytes]

theorem RawRecord.splitOn_metadata (r : RawRecord) :
    (Lines.lines space [r.oldMode.bytes, r.newMode.bytes, r.oldOid.bytes, r.newOid.bytes] ++
        r.change.letter :: digitBytes r.score).splitOn space =
      [r.oldMode.bytes, r.newMode.bytes, r.oldOid.bytes, r.newOid.bytes,
        r.change.letter :: digitBytes r.score] := by
  refine Fields.splitOn_lines (fun f hf => ?_) fun hmem => ?_
  · simp only [List.mem_cons, List.not_mem_nil, or_false] at hf
    rcases hf with rfl | rfl | rfl | rfl
    · exact r.oldMode.space_notMem
    · exact r.newMode.space_notMem
    · exact r.oldOid.space_notMem
    · exact r.newOid.space_notMem
  · rcases List.mem_cons.mp hmem with heq | hmem
    · exact r.change.letter_spec.2.2 heq.symm
    · exact notMem_digitBytes (by decide) hmem

theorem addRawItem_eq (r : RawRecord) (output : List RawItem) :
    addRawItem output r.oldMode.bytes r.newMode.bytes r.oldOid.bytes r.newOid.bytes
        (decode (r.change.letter :: digitBytes r.score)) (decode (slashed r.change.path.bytes))
        (decode (slashed r.change.original)) = .ok (output ++ [r.item]) := by
  rw [decode_status]
  unfold addRawItem
  rw [List.drop_succ_cons, List.drop_zero, intOrZero_text]
  rfl

section RawDiff

variable {metadata oldMode newMode oldOid newOid status first second : Bytes} {rest : List Bytes}
  {output output' : List RawItem}

theorem readRawDiff_plain (hsplit : metadata.splitOn space = [oldMode, newMode, oldOid, newOid, status])
    (hkind : ¬ ((decode status).take 1 = lit "R" ∨ (decode status).take 1 = lit "C"))
    (hadd : addRawItem output oldMode newMode oldOid newOid (decode status) (normalPath (decode first)) [] =
      .ok output') :
    readRawDiff ((0x3A :: metadata) :: first :: rest) output = readRawDiff rest output' := by
  rw [readRawDiff.eq_def]
  dsimp only
  rw [if_neg (by decide), hsplit]
  dsimp only
  rw [if_neg hkind, hadd]
  rfl

theorem readRawDiff_moved (hsplit : metadata.splitOn space = [oldMode, newMode, oldOid, newOid, status])
    (hkind : (decode status).take 1 = lit "R" ∨ (decode status).take 1 = lit "C")
    (hadd : addRawItem output oldMode newMode oldOid newOid (decode status) (normalPath (decode second))
      (normalPath (decode first)) = .ok output') :
    readRawDiff ((0x3A :: metadata) :: first :: second :: rest) output = readRawDiff rest output' := by
  rw [readRawDiff.eq_def]
  dsimp only
  rw [if_neg (by decide), hsplit]
  dsimp only
  rw [if_pos hkind, hadd]
  rfl

end RawDiff

theorem status_eq_lit (c : RawChange) (digits : List (Fin 10)) :
    ((decode (c.letter :: digitBytes digits)).take 1 = lit "R" ∨
      (decode (c.letter :: digitBytes digits)).take 1 = lit "C") ↔ c.letter = 0x52 ∨ c.letter = 0x43 := by
  have hletter : ∀ b : UInt8, (decode (c.letter :: digitBytes digits)).take 1 = [point b] ↔ c.letter = b :=
    fun b => by
      rw [decode_status, List.take_succ_cons, List.take_zero, List.singleton_inj,
        Surrogates.point_injective.eq_iff]
  exact or_congr (hletter 0x52) (hletter 0x43)

/-- **A record is read** from its tokens. -/
theorem readRawDiff_tokens (r : RawRecord) (rest : List Bytes) (output : List RawItem) :
    readRawDiff (r.tokens ++ rest) output = readRawDiff rest (output ++ [r.item]) := by
  have hsplit := r.splitOn_metadata
  have hadd := addRawItem_eq r output
  rw [← normalPath_decode, ← normalPath_decode] at hadd
  have hkind := status_eq_lit r.change r.score
  rw [RawRecord.tokens]
  cases hchange : r.change with
  | plain kind notMoved path =>
      rw [hchange] at hsplit hadd hkind
      refine readRawDiff_plain hsplit (fun h => ?_) hadd
      rcases hkind.mp h with h | h
      · exact notMoved.1 h
      · exact notMoved.2 h
  | moved copied original path =>
      rw [hchange] at hsplit hadd hkind
      refine readRawDiff_moved hsplit (hkind.mpr ?_) hadd
      cases copied
      · exact .inl rfl
      · exact .inr rfl

theorem RawRecord.nul_notMem (r : RawRecord) : ∀ t ∈ r.tokens, nul ∉ t := by
  have hnames : ∀ t ∈ r.change.names, nul ∉ t := by
    cases r.change with
    | plain kind notMoved path => exact List.forall_mem_singleton.mpr path.nul_notMem
    | moved copied original path =>
        exact List.forall_mem_cons.mpr ⟨original.nul_notMem, List.forall_mem_singleton.mpr path.nul_notMem⟩
  refine List.forall_mem_cons.mpr ⟨?_, hnames⟩
  have hfields : ∀ f ∈ [r.oldMode.bytes, r.newMode.bytes, r.oldOid.bytes, r.newOid.bytes], nul ∉ f := by
    intro f hf
    simp only [List.mem_cons, List.not_mem_nil, or_false] at hf
    rcases hf with rfl | rfl | rfl | rfl
    · exact r.oldMode.nul_notMem
    · exact r.newMode.nul_notMem
    · exact r.oldOid.nul_notMem
    · exact r.newOid.nul_notMem
  have hstatus : nul ∉ r.change.letter :: digitBytes r.score := fun hmem => by
    rcases List.mem_cons.mp hmem with heq | hmem
    · exact r.change.letter_spec.2.1 heq.symm
    · exact notMem_digitBytes (by decide) hmem
  intro hmem
  rcases List.mem_cons.mp hmem with heq | hmem
  · exact absurd heq (by decide)
  · exact nul_notMem_lines (by decide) hfields hstatus hmem

theorem foldl_snoc {ρ τ : Type} (f : ρ → τ) (rs : List ρ) (out : List τ) :
    rs.foldl (fun out r => out ++ [f r]) out = out ++ rs.map f := by
  induction rs generalizing out with
  | nil => simp
  | cons r rs ih => rw [List.foldl_cons, ih, List.map_cons, List.append_assoc, List.singleton_append]

/-- **A difference is read as it is written.** -/
theorem parseRawDiff_stream (rs : List RawRecord) :
    parseRawDiff (stream RawRecord.tokens rs) = .ok (rs.map RawRecord.item) := by
  have htokens : ∀ t ∈ rs.flatMap RawRecord.tokens, nul ∉ t := fun t ht => by
    obtain ⟨r, -, hr⟩ := List.mem_flatMap.mp ht
    exact r.nul_notMem t hr
  rw [parseRawDiff, stream, if_neg (not_truncated_lines _), splitOn_stream htokens,
    Fields.reads_records readRawDiff (fun r _ => readRawDiff_tokens r), foldl_snoc]
  rfl

/-! ### Counts -/

theorem splitMax_counted (c : Counted) (path : Bytes) :
    ∃ add delete, Fields.splitMax tab 2 (Lines.lines tab c.fields ++ path) = [add, delete, path] ∧
      readCounts add delete = .ok c.counts := by
  cases c with
  | binary =>
      have htab : ∀ f ∈ [[0x2D], [0x2D]], tab ∉ f := by decide
      exact ⟨_, _, Fields.splitMax_lines htab path, rfl⟩
  | lines added deleted nonempty =>
      have htab : ∀ f ∈ [digitBytes added, digitBytes deleted], tab ∉ f := by
        intro f hf
        simp only [List.mem_cons, List.not_mem_nil, or_false] at hf
        rcases hf with rfl | rfl
        · exact notMem_digitBytes (by decide)
        · exact notMem_digitBytes (by decide)
      have hminus : ∀ digits : List (Fin 10), digitBytes digits ≠ [0x2D] := fun digits h => by
        have hnot : 0x2D ∉ digitBytes digits := notMem_digitBytes (by decide)
        rw [h] at hnot
        exact hnot (List.mem_singleton_self _)
      refine ⟨_, _, Fields.splitMax_lines htab path, ?_⟩
      unfold readCounts
      rw [if_neg (not_or.mpr ⟨hminus added, hminus deleted⟩), intOrZero_bytes nonempty.1,
        intOrZero_bytes nonempty.2]
      rfl

section Numstat

variable {token add delete path first second : Bytes} {rest : List Bytes} {output : List (CodeText × Counts)}
  {counts : Counts}

theorem readNumstat_plain (hsplit : Fields.splitMax tab 2 token = [add, delete, path])
    (hpath : normalPath (decode path) ≠ []) (hcounts : readCounts add delete = .ok counts) :
    readNumstat (token :: rest) output =
      readNumstat rest (Dict.set output (normalPath (decode path)) counts) := by
  cases token with
  | nil => cases hsplit
  | cons b token =>
      rw [readNumstat.eq_def]
      dsimp only
      rw [hsplit]
      dsimp only
      rw [if_neg hpath, hcounts]
      rfl

theorem readNumstat_moved (hsplit : Fields.splitMax tab 2 token = [add, delete, []])
    (hcounts : readCounts add delete = .ok counts) :
    readNumstat (token :: first :: second :: rest) output =
      readNumstat rest (Dict.set output (normalPath (decode second)) counts) := by
  cases token with
  | nil => cases hsplit
  | cons b token =>
      rw [readNumstat.eq_def]
      dsimp only
      rw [hsplit]
      have hpath : normalPath (decode []) = [] := rfl
      dsimp only
      rw [if_pos hpath, hcounts]
      rfl

end Numstat

theorem decode_slashed_ne (path : PathName) : decode (slashed path.bytes) ≠ [] := fun h =>
  path.nonempty (List.map_eq_nil_iff.mp (Surrogates.decode_eq_nil_iff.mp h))

/-- **A record is read** from its tokens. -/
theorem readNumstat_tokens (r : NumstatRecord) (rest : List Bytes) (output : List (CodeText × Counts)) :
    readNumstat (r.tokens ++ rest) output = readNumstat rest (Dict.set output r.entry.1 r.entry.2) := by
  have hpath := decode_slashed_ne r.path
  rw [← normalPath_decode] at hpath
  rw [NumstatRecord.tokens, NumstatRecord.entry, ← normalPath_decode]
  cases r.original with
  | none =>
      obtain ⟨add, delete, hsplit, hcounts⟩ := splitMax_counted r.counted r.path.bytes
      exact readNumstat_plain hsplit hpath hcounts
  | some original =>
      obtain ⟨add, delete, hsplit, hcounts⟩ := splitMax_counted r.counted []
      rw [List.append_nil] at hsplit
      exact readNumstat_moved hsplit hcounts

theorem NumstatRecord.nul_notMem (r : NumstatRecord) : ∀ t ∈ r.tokens, nul ∉ t := by
  have hfields : ∀ f ∈ r.counted.fields, nul ∉ f := by
    cases r.counted with
    | binary => decide
    | lines added deleted nonempty =>
        exact List.forall_mem_cons.mpr ⟨notMem_digitBytes (by decide),
          List.forall_mem_singleton.mpr (notMem_digitBytes (by decide))⟩
  rw [tokens]
  cases r.original with
  | none => exact List.forall_mem_singleton.mpr (nul_notMem_lines (by decide) hfields r.path.nul_notMem)
  | some original =>
      have hline : nul ∉ Lines.lines tab r.counted.fields ++ [] :=
        nul_notMem_lines (by decide) hfields List.not_mem_nil
      rw [List.append_nil] at hline
      exact List.forall_mem_cons.mpr ⟨hline, List.forall_mem_cons.mpr
        ⟨original.nul_notMem, List.forall_mem_singleton.mpr r.path.nul_notMem⟩⟩

/-- **Counts are read as they are written.** -/
theorem parseNumstat_stream (rs : List NumstatRecord) :
    parseNumstat (stream NumstatRecord.tokens rs) = .ok (Dict.merge [] (rs.map NumstatRecord.entry)) := by
  have htokens : ∀ t ∈ rs.flatMap NumstatRecord.tokens, nul ∉ t := fun t ht => by
    obtain ⟨r, -, hr⟩ := List.mem_flatMap.mp ht
    exact r.nul_notMem t hr
  rw [parseNumstat, stream, if_neg (not_truncated_lines _), splitOn_stream htokens,
    Fields.reads_records readNumstat (fun r _ => readNumstat_tokens r), Dict.merge, List.foldl_map]
  rfl

/-! ## 5.  Worktrees -/

theorem WorktreeKey.bytes_spec (key : WorktreeKey) :
    decode key.bytes = lit key.text ∧ space ∉ key.bytes ∧ nul ∉ key.bytes ∧ key.bytes ≠ [] := by
  cases key
  all_goals exact ⟨rfl, by decide, by decide, by decide⟩

theorem WorktreeKey.text_injective {key key' : WorktreeKey} (h : lit key.text = lit key'.text) :
    key = key' := by
  revert h
  cases key <;> cases key' <;> decide

section Worktrees

variable {realpath : CodeText → CodeText} {rows : List WorktreeObservation}
  {current : List (CodeText × Attribute)} {rest : List Bytes}

/-- A line is read as its key and its text. -/
theorem readWorktrees_line {key : Bytes} (hspace : space ∉ key) (hne : key ≠ []) (value : Option Plain) :
    readWorktrees realpath (keyLine key value :: rest) (rows, current) =
      readWorktrees realpath rest (rows, Dict.set current (decode key) (keyAttribute value)) := by
  have hkey : point space ∉ decode key := fun h =>
    hspace ((Surrogates.point_mem_decode_iff (by decide)).mp h)
  have hcut : Fields.cut (point space) (decode (keyLine key value)) =
      (decode key, value.map fun value => decode value.bytes) := by
    cases value with
    | none => exact Fields.cut_of_not_mem hkey
    | some value =>
        rw [keyLine, Surrogates.decode_append_ascii (by decide), Fields.cut_append hkey]
        rfl
  cases htoken : keyLine key value with
  | nil =>
      cases value with
      | none => exact absurd htoken hne
      | some value => exact absurd (List.append_eq_nil_iff.mp htoken).1 hne
  | cons b token =>
      rw [htoken] at hcut
      rw [readWorktrees.eq_def]
      dsimp only
      rw [hcut]
      cases value with
      | none => rfl
      | some value => rfl

/-- The lines of a record are read as its attributes. -/
theorem readWorktrees_lines (r : WorktreeRecord) (keys : List WorktreeKey) :
    readWorktrees realpath
        (keys.filterMap (fun key => (r.line key).map (keyLine key.bytes)) ++ rest) (rows, current) =
      readWorktrees realpath rest (rows, Dict.merge current
        (keys.filterMap fun key => (r.line key).map fun value => (lit key.text, keyAttribute value))) := by
  induction keys generalizing current with
  | nil => rfl
  | cons key keys ih =>
      cases hline : r.line key with
      | none =>
          rw [List.filterMap_cons_none (by rw [hline]; rfl), List.filterMap_cons_none (by rw [hline]; rfl),
            ih]
      | some value =>
          obtain ⟨htext, hspace, -, hne⟩ := key.bytes_spec
          rw [List.filterMap_cons_some (by rw [hline]; rfl), List.filterMap_cons_some (by rw [hline]; rfl),
            List.cons_append, readWorktrees_line hspace hne, ih, htext]
          rfl

end Worktrees

/-- The attributes of a record by their keys. -/
theorem get?_attributes (r : WorktreeRecord) (keys : List WorktreeKey) (key : WorktreeKey)
    (hkey : key ∈ keys) :
    Dict.get? (keys.filterMap fun key => (r.line key).map fun value => (lit key.text, keyAttribute value))
      (lit key.text) = (r.line key).map keyAttribute := by
  induction keys with
  | nil => cases hkey
  | cons key' keys ih =>
      by_cases heq : key' = key
      · subst heq
        cases hline : r.line key' with
        | none =>
            rw [List.filterMap_cons_none (by rw [hline]; rfl), Option.map_none]
            refine Dict.get?_eq_none_iff.mpr fun hmem => ?_
            obtain ⟨v, hv⟩ := Dict.mem_keys.mp hmem
            obtain ⟨key'', -, hkey''⟩ := List.mem_filterMap.mp hv
            obtain ⟨value, hvalue, hpair⟩ := Option.map_eq_some_iff.mp hkey''
            obtain rfl := WorktreeKey.text_injective (Prod.mk.inj hpair).1
            rw [hline] at hvalue
            cases hvalue
        | some value =>
            rw [List.filterMap_cons_some (by rw [hline]; rfl), Dict.get?_cons, if_pos rfl]
            rfl
      · have hmem : key ∈ keys := (List.mem_cons.mp hkey).resolve_left fun h => heq h.symm
        cases hline : r.line key' with
        | none => rw [List.filterMap_cons_none (by rw [hline]; rfl), ih hmem]
        | some value =>
            have hne : lit key'.text ≠ lit key.text := fun h => heq (WorktreeKey.text_injective h)
            rw [List.filterMap_cons_some (by rw [hline]; rfl), Dict.get?_cons, if_neg hne, ih hmem]

/-- The attributes of a record. -/
def WorktreeRecord.attributes (r : WorktreeRecord) : List (CodeText × Attribute) :=
  (lit "worktree", .text (decode r.path.bytes)) ::
    WorktreeKey.all.filterMap fun key => (r.line key).map fun value => (lit key.text, keyAttribute value)

theorem WorktreeRecord.wf_attributes (r : WorktreeRecord) : Dict.WF r.attributes := by
  have hkeys : (Dict.keys r.attributes).Sublist
      (lit "worktree" :: WorktreeKey.all.map fun key => lit key.text) := by
    refine List.Sublist.cons_cons _ ?_
    generalize WorktreeKey.all = keys
    induction keys with
    | nil => exact List.Sublist.slnil
    | cons key keys ih =>
        cases hline : r.line key with
        | none =>
            rw [List.filterMap_cons_none (by rw [hline]; rfl)]
            exact ih.cons _
        | some value =>
            rw [List.filterMap_cons_some (by rw [hline]; rfl)]
            exact ih.cons_cons _
  exact hkeys.nodup (by decide)

theorem get?_key (r : WorktreeRecord) (key : WorktreeKey) :
    Dict.get? r.attributes (lit key.text) = (r.line key).map keyAttribute := by
  have hne : lit "worktree" ≠ lit key.text := by cases key <;> decide
  have hkey : key ∈ WorktreeKey.all := by cases key <;> decide
  rw [WorktreeRecord.attributes, Dict.get?_cons, if_neg hne, get?_attributes r _ key hkey]

theorem WorktreeRecord.attributeText_eq (r : WorktreeRecord) (key : WorktreeKey) :
    attributeText r.attributes key.text = r.value key := by
  rw [attributeText, get?_key, value]
  cases r.line key with
  | none => rfl
  | some value => cases value <;> rfl

theorem WorktreeRecord.attributeHolds_eq (r : WorktreeRecord) (key : WorktreeKey) :
    attributeHolds r.attributes key.text = r.holds key := by
  rw [attributeHolds, get?_key, holds]
  cases r.line key with
  | none => rfl
  | some value =>
      cases value with
      | none => rfl
      | some value => exact decide_eq_decide.mpr (not_congr Surrogates.decode_eq_nil_iff)

/-- **A record is read** from its tokens. -/
theorem readWorktrees_tokens (realpath : CodeText → CodeText) (r : WorktreeRecord) (rest : List Bytes)
    (rows : List WorktreeObservation) :
    readWorktrees realpath (r.tokens ++ rest) (rows, []) =
      readWorktrees realpath rest (rows ++ [r.observation realpath], []) := by
  have hworktree : decode worktreeBytes = lit "worktree" := rfl
  have hmerge : Dict.merge [(lit "worktree", Attribute.text (decode r.path.bytes))]
      (WorktreeKey.all.filterMap fun key =>
        (r.line key).map fun value => (lit key.text, keyAttribute value)) = r.attributes := by
    have hwf := r.wf_attributes
    refine Dict.merge_of_disjoint hwf.tail fun k hk hmem => hwf.head_notMem ?_
    rw [List.mem_singleton.mp hmem] at hk
    exact hk
  have hholds : attributeHolds r.attributes "worktree" = true := by
    rw [attributeHolds, WorktreeRecord.attributes, Dict.get?_cons, if_pos rfl]
    exact decide_eq_true fun h => r.path.nonempty (Surrogates.decode_eq_nil_iff.mp h)
  have hobservation : worktreeOf realpath r.attributes = r.observation realpath := by
    have htext := r.attributeText_eq
    have hflag := r.attributeHolds_eq
    unfold worktreeOf WorktreeRecord.observation
    rw [show attributeText r.attributes "HEAD" = _ from htext .head,
      show attributeText r.attributes "branch" = _ from htext .branch,
      show attributeHolds r.attributes "detached" = _ from hflag .detached,
      show attributeHolds r.attributes "bare" = _ from hflag .bare,
      show attributeText r.attributes "locked" = _ from htext .locked,
      show attributeText r.attributes "prunable" = _ from htext .prunable]
    rfl
  show readWorktrees realpath (keyLine worktreeBytes (some r.path.toPlain) ::
    (WorktreeKey.all.filterMap (fun key => (r.line key).map (keyLine key.bytes)) ++ [[]] ++ rest))
      (rows, []) = _
  rw [readWorktrees_line (by decide) (by decide), List.append_assoc, readWorktrees_lines, hworktree]
  show readWorktrees realpath ([] :: rest)
    (rows, Dict.merge [(lit "worktree", .text (decode r.path.bytes))] _) = _
  rw [hmerge, readWorktrees.eq_def]
  dsimp only
  rw [if_pos hholds, hobservation]

theorem WorktreeRecord.nul_notMem (r : WorktreeRecord) : ∀ t ∈ r.tokens, nul ∉ t := by
  have hline : ∀ {key : Bytes} (value : Option Plain), nul ∉ key → nul ∉ keyLine key value := by
    intro key value hkey
    cases value with
    | none => exact hkey
    | some value =>
        intro hmem
        rcases List.mem_append.mp hmem with hmem | hmem
        · exact hkey hmem
        · rcases List.mem_cons.mp hmem with heq | hmem
          · exact absurd heq (by decide)
          · exact value.nul_notMem hmem
  intro t ht
  rcases List.mem_append.mp ht with ht | ht
  · rcases List.mem_cons.mp ht with rfl | ht
    · exact hline (some r.path.toPlain) (by decide)
    · obtain ⟨key, -, hkey⟩ := List.mem_filterMap.mp ht
      obtain ⟨value, -, rfl⟩ := Option.map_eq_some_iff.mp hkey
      exact hline value key.bytes_spec.2.2.1
  · rw [List.mem_singleton.mp ht]
    exact List.not_mem_nil

/-- **Worktrees are read as they are written.** -/
theorem worktrees_stream (realpath : CodeText → CodeText) (rs : List WorktreeRecord) :
    worktreesOf realpath (stream WorktreeRecord.tokens rs) =
      .ok (rs.map (WorktreeRecord.observation realpath)) := by
  have htokens : ∀ t ∈ rs.flatMap WorktreeRecord.tokens, nul ∉ t := fun t ht => by
    obtain ⟨r, -, hr⟩ := List.mem_flatMap.mp ht
    exact r.nul_notMem t hr
  have hread : ∀ r ∈ rs, ∀ rest rows, readWorktrees realpath (r.tokens ++ rest) (rows, []) =
      readWorktrees realpath rest (rows ++ [r.observation realpath], []) :=
    fun r _ => readWorktrees_tokens realpath r
  rw [worktreesOf, stream, if_neg (not_truncated_lines _), splitOn_stream htokens,
    Fields.reads_records (fun tokens rows => readWorktrees realpath tokens (rows, [])) hread, foldl_snoc]
  rfl

/-! ## 6.  The formats together -/

/-- The counts of the records. -/
def countsOf (ns : List NumstatRecord) : List (CodeText × Counts) :=
  Dict.merge [] (ns.map NumstatRecord.entry)

/-- A key that has one value among some entries has it after they are set. -/
theorem get?_merge_of_unique {κ α : Type} [DecidableEq κ] {d e : List (κ × α)} {k : κ} {v : α}
    (hmem : (k, v) ∈ e) (hunique : ∀ w, (k, w) ∈ e → w = v) : Dict.get? (Dict.merge d e) k = some v := by
  have hkeep : ∀ (e d : List (κ × α)), (∀ w, (k, w) ∈ e → w = v) → Dict.get? d k = some v →
      Dict.get? (Dict.merge d e) k = some v := by
    intro e
    induction e with
    | nil => exact fun d _ hd => hd
    | cons p e ih =>
        intro d he hd
        rw [Dict.merge_cons]
        refine ih _ (fun w hw => he w (List.mem_cons_of_mem _ hw)) ?_
        by_cases hp : p.1 = k
        · rw [← hp, Dict.get?_set_self, he p.2 (by rw [← hp]; exact List.mem_cons_self)]
        · rw [Dict.get?_set_of_ne hp, hd]
  induction e generalizing d with
  | nil => cases hmem
  | cons p e ih =>
      have he : ∀ w, (k, w) ∈ e → w = v := fun w hw => hunique w (List.mem_cons_of_mem _ hw)
      rw [Dict.merge_cons]
      rcases List.mem_cons.mp hmem with rfl | hmem
      · exact hkeep e _ he (Dict.get?_set_self _ _ _)
      · exact ih hmem he

/-- A stream that is cut is read as the records before the cut or refused, unless it is cut between the tokens
of one record. -/
def CutExact {ρ α : Type} (tokens : ρ → List Bytes) (parse : Bytes → Except Failure α)
    (value : List ρ → α) : Prop :=
  ∀ (rs : List ρ) (n : Nat),
    (∃ k, (stream tokens rs).take n = stream tokens (rs.take k) ∧
        parse ((stream tokens rs).take n) = .ok (value (rs.take k))) ∨
      (∃ k r part, (stream tokens rs).take n = stream tokens (rs.take k) ++ Lines.lines nul part ∧
        rs[k]? = some r ∧ part <+: tokens r ∧ part ≠ [] ∧ part ≠ tokens r) ∨
      ∃ message, parse ((stream tokens rs).take n) = .error (.gitCommandError message)

theorem cutExact {ρ α : Type} {tokens : ρ → List Bytes} {parse : Bytes → Except Failure α}
    {value : List ρ → α} (htokens : ∀ r, ∀ t ∈ tokens r, nul ∉ t)
    (hstream : ∀ rs, parse (stream tokens rs) = .ok (value rs))
    {message : String} (htruncated : ∀ raw, Truncated raw → parse raw = .error (.gitCommandError message)) :
    CutExact tokens parse value := by
  intro rs n
  rcases Fields.take_records (fun r (_ : r ∈ rs) => htokens r) n with
    ⟨k, htake⟩ | ⟨k, r, part, htake, hpart⟩ | htruncates
  · refine .inl ⟨k, htake, ?_⟩
    rw [stream, htake]
    exact hstream (rs.take k)
  · refine .inr (.inl ⟨k, r, part, ?_, hpart⟩)
    rw [stream, htake, stream, Lines.lines, Lines.lines, Lines.lines, List.map_append, List.flatten_append]
  · exact .inr (.inr ⟨message, htruncated _ htruncates⟩)

/-- Git's formats are read as they are written, up to the backslashes of names. -/
structure FormatsExact : Prop where
  status : ∀ rs, parseStatus (stream StatusRecord.tokens rs) = .ok (statusLines rs)
  rawDiff : ∀ rs, parseRawDiff (stream RawRecord.tokens rs) = .ok (rs.map RawRecord.item)
  numstat : ∀ rs, parseNumstat (stream NumstatRecord.tokens rs) = .ok (countsOf rs)
  worktrees : ∀ realpath rs, worktreesOf realpath (stream WorktreeRecord.tokens rs) =
    .ok (rs.map (WorktreeRecord.observation realpath))
  /-- Different names are different texts. -/
  names : Function.Injective decode
  /-- Counts of different names stay apart and in order. -/
  apart : ∀ ns : List NumstatRecord, (ns.map fun n => slashed n.path.bytes).Nodup →
    countsOf ns = ns.map NumstatRecord.entry
  /-- A file has the counts of its own record. -/
  joined : ∀ (ds : List RawRecord) (ns : List NumstatRecord) (patch : Bytes), ∃ files : List DiffFile,
    diffOf (stream RawRecord.tokens ds) (stream NumstatRecord.tokens ns) patch = .ok ⟨files, patch⟩ ∧
      files.map DiffFile.item = ds.map RawRecord.item ∧
      ∀ (i : Nat) (d : RawRecord) (f : DiffFile) (n : NumstatRecord), ds[i]? = some d → files[i]? = some f →
        n ∈ ns → n.path.bytes = d.change.path.bytes →
        (∀ n' ∈ ns, slashed n'.path.bytes = slashed n.path.bytes → n' = n) → f.counts = n.counted.counts
  cutStatus : CutExact StatusRecord.tokens parseStatus statusLines
  cutRawDiff : CutExact RawRecord.tokens parseRawDiff (List.map RawRecord.item)
  cutNumstat : CutExact NumstatRecord.tokens parseNumstat countsOf
  cutWorktrees : ∀ realpath, CutExact WorktreeRecord.tokens (worktreesOf realpath)
    (List.map (WorktreeRecord.observation realpath))

theorem countsOf_apart (ns : List NumstatRecord) (h : (ns.map fun n => slashed n.path.bytes).Nodup) :
    countsOf ns = ns.map NumstatRecord.entry := by
  refine (Dict.merge_of_disjoint ?_ fun _ _ => List.not_mem_nil).trans (List.nil_append _)
  have hkeys : Dict.keys (ns.map NumstatRecord.entry) =
      (ns.map fun n => slashed n.path.bytes).map decode := by
    rw [Dict.keys, List.map_map, List.map_map]
    rfl
  show (Dict.keys _).Nodup
  rw [hkeys]
  exact h.map Surrogates.decode_injective

theorem counts_joined {ns : List NumstatRecord} {d : RawRecord} {n : NumstatRecord} (hn : n ∈ ns)
    (hpath : n.path.bytes = d.change.path.bytes)
    (hunique : ∀ n' ∈ ns, slashed n'.path.bytes = slashed n.path.bytes → n' = n) :
    (diffFile (countsOf ns) d.item).counts = n.counted.counts := by
  have hget : Dict.get? (countsOf ns) (decode (slashed d.change.path.bytes)) = some n.counted.counts := by
    rw [← hpath]
    refine get?_merge_of_unique (List.mem_map.mpr ⟨n, hn, rfl⟩) fun w hw => ?_
    obtain ⟨n', hn', heq⟩ := List.mem_map.mp hw
    obtain ⟨hname, rfl⟩ := Prod.mk.inj heq
    rw [hunique n' hn' (Surrogates.decode_injective hname)]
  show (Dict.get? (countsOf ns) (decode (slashed d.change.path.bytes))).getD _ = _
  rw [hget]
  rfl

/-- **Git's formats are read as they are written.** -/
theorem formats_exact : FormatsExact where
  status := parseStatus_stream
  rawDiff := parseRawDiff_stream
  numstat := parseNumstat_stream
  worktrees := worktrees_stream
  names := Surrogates.decode_injective
  apart := countsOf_apart
  joined := by
    intro ds ns patch
    refine ⟨(ds.map RawRecord.item).map (diffFile (countsOf ns)), ?_, ?_, ?_⟩
    · rw [diffOf, parseNumstat_stream, parseRawDiff_stream]
      rfl
    · rw [List.map_map]
      exact List.map_id _
    · intro i d f n hd hf hn hpath hunique
      rw [List.getElem?_map, List.getElem?_map, hd] at hf
      obtain rfl := Option.some.inj hf
      exact counts_joined hn hpath hunique
  cutStatus := cutExact StatusRecord.nul_notMem parseStatus_stream fun raw h => by rw [parseStatus, if_pos h]
  cutRawDiff := cutExact RawRecord.nul_notMem parseRawDiff_stream fun raw h => by rw [parseRawDiff, if_pos h]
  cutNumstat := cutExact NumstatRecord.nul_notMem parseNumstat_stream fun raw h => by
    rw [parseNumstat, if_pos h]
  cutWorktrees := fun realpath =>
    cutExact WorktreeRecord.nul_notMem (worktrees_stream realpath) fun raw h => by rw [worktreesOf, if_pos h]

/-- Two names that differ in a backslash are read as one. -/
theorem backslash_read_as_slash : ¬ ∀ p q : PathName, p.bytes ≠ q.bytes →
    parseStatus (stream StatusRecord.tokens [.untracked p]) ≠
      parseStatus (stream StatusRecord.tokens [.untracked q]) := by
  intro h
  refine h ⟨⟨[0x61, backslash, 0x62], by decide⟩, by decide⟩ ⟨⟨[0x61, slash, 0x62], by decide⟩, by decide⟩
    (by decide) ?_
  rw [parseStatus_stream, parseStatus_stream]
  rfl

end Git
end VariantOne
