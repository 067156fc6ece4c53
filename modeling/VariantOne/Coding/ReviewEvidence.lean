import VariantOne.Coding.ReviewPanel

/-!
# Names, counts and stored files

What the panel needs of the evidence, one kind at a time: the key of a file is its path
when its name is plain (`key_of_plainName`), all lines of a file are shown when there is
room and none is hidden (`shownOf_of_room`), and a stored file is split into its lines
when nothing breaks them (`splitLines_front`).

The three kinds meet in `ReviewFaithful`: names decide under which row a line is shown, counts whether all
are shown, and pieces whether a stored file is shown as the lines it has.  A name that Git quotes is no key
of its own, and a line with a carriage return inside is shown in pieces.
-/

namespace VariantOne
namespace Coding

/-! ## 1.  Names -/

/-- A name that is shown as it is, and that stripping leaves as it is. -/
structure PlainName (name : Str) : Prop where
  unquoted : name.any needsQuote = false
  stripped : name.rdropWhile isSpace = name

theorem rdropWhile_append_of_neg {s t : Str} {c : Char} (hc : isSpace c = false) :
    (s ++ c :: t).rdropWhile isSpace = s ++ c :: t.rdropWhile isSpace := by
  induction t using List.reverseRecOn with
  | nil =>
      rw [List.rdropWhile_concat_neg _ _ _ (by rw [hc]; decide)]
      rfl
  | append_singleton t d ih =>
      have hshape : s ++ c :: (t ++ [d]) = (s ++ c :: t) ++ [d] := by simp
      rw [hshape]
      by_cases hd : isSpace d = true
      · rw [List.rdropWhile_concat_pos _ _ _ hd, List.rdropWhile_concat_pos _ _ _ hd, ih]
      · rw [List.rdropWhile_concat_neg _ _ _ hd, List.rdropWhile_concat_neg _ _ _ hd, ← hshape]

/-- Stripping a label takes its tab away, and what else is blank at its end. -/
theorem stripChars_labelText {c : Char} (hc : isSpace c = false) (t : Str) :
    stripChars (labelText (c :: t)) = (c :: t).rdropWhile isSpace := by
  have htab : isSpace '\t' = true := by decide
  have hdrop : ∀ u : Str, (c :: u).dropWhile isSpace = c :: u := fun u =>
    List.dropWhile_cons_of_neg (by rw [hc]; decide)
  unfold labelText stripChars
  split
  · rw [List.cons_append, hdrop, ← List.cons_append, List.rdropWhile_concat_pos _ _ _ htab]
  · rw [List.append_nil, hdrop]

theorem dropSide_append (side value : Str) (h : side.length = 2) :
    dropSide side (side ++ value) = value := by
  unfold dropSide
  rw [if_pos (List.prefix_append side value), ← h, List.drop_left]

theorem ne_nowhere_of_prefixed {t name : Str} (hpre : t <+: name) (h : name.head? ≠ some '/') :
    t ≠ nowhere := by
  rintro rfl
  obtain ⟨rest, hrest⟩ := hpre
  exact h (by rw [← hrest]; rfl)

/-- The path of a name that is not quoted. -/
theorem sidePath_plain {x : Char} (hx : isSpace x = false) {name : Str}
    (hquote : name.any needsQuote = false) (hrel : name.head? ≠ some '/') (absent : Str) :
    sidePath [x, '/'] (labelText (shownName [x, '/'] name)) absent =
      name.rdropWhile isSpace := by
  have hslash : isSpace '/' = false := by decide
  have hshown : shownName [x, '/'] name = x :: '/' :: name := by
    unfold shownName
    rw [hquote]
    rfl
  have hstrip : stripChars (labelText (shownName [x, '/'] name)) =
      [x, '/'] ++ name.rdropWhile isSpace := by
    rw [hshown, stripChars_labelText hx]
    exact rdropWhile_append_of_neg (s := [x]) hslash
  unfold sidePath
  simp only [hstrip, dropSide_append [x, '/'] _ rfl]
  exact if_neg (ne_nowhere_of_prefixed (List.rdropWhile_prefix _ _) hrel)

theorem backslash_mem_quoteChar {c : Char} (h : needsQuote c = true) : '\\' ∈ quoteChar c := by
  unfold quoteChar
  rw [if_pos h]
  split_ifs <;> exact List.mem_cons_self

/-- The path of a quoted name has a backslash. -/
theorem backslash_mem_sidePath {x : Char} (hx : x ≠ '"') {name : Str}
    (hquote : name.any needsQuote = true) (absent : Str) :
    '\\' ∈ sidePath [x, '/'] (labelText (shownName [x, '/'] name)) absent := by
  have hopen : isSpace '"' = false := by decide
  have hshown : shownName [x, '/'] name =
      '"' :: ([x, '/'] ++ name.flatMap quoteChar ++ ['"']) := by
    unfold shownName
    rw [if_pos hquote]
    rfl
  have hlast : (shownName [x, '/'] name).rdropWhile isSpace = shownName [x, '/'] name := by
    rw [hshown, ← List.cons_append]
    exact List.rdropWhile_concat_neg _ _ _ (by rw [hopen]; decide)
  have hstrip : stripChars (labelText (shownName [x, '/'] name)) = shownName [x, '/'] name := by
    conv_rhs => rw [← hlast]
    rw [hshown, stripChars_labelText hopen]
  have hside : dropSide [x, '/'] (shownName [x, '/'] name) = shownName [x, '/'] name := by
    unfold dropSide
    rw [if_neg]
    rw [hshown]
    exact not_prefix_of_head hx
  have hsome : shownName [x, '/'] name ≠ nowhere := by
    rw [hshown]
    exact fun he => absurd (List.cons.inj he).1 (by decide)
  unfold sidePath
  simp only [hstrip, hside]
  rw [if_neg hsome, hshown]
  obtain ⟨c, hc, hneeds⟩ := List.any_eq_true.mp hquote
  have hmem : '\\' ∈ name.flatMap quoteChar :=
    List.mem_flatMap.mpr ⟨c, hc, backslash_mem_quoteChar hneeds⟩
  simp [hmem]

theorem sidePath_nowhere (absent : Str) : sidePath "b/".toList nowhere absent = absent := by
  have hdrop : dropSide "b/".toList (stripChars nowhere) = nowhere := by decide +kernel
  unfold sidePath
  simp only [hdrop]
  rfl

/-- **The key of a file** comes from its name, on the side where there is one. -/
theorem key_eq (f : FilePatch) : ∃ x absent, isSpace x = false ∧ x ≠ '"' ∧
    f.key = sidePath [x, '/'] (labelText (shownName [x, '/'] f.name)) absent := by
  unfold FilePatch.key FilePatch.newLabel
  by_cases hdeleted : f.change = .deleted
  · refine ⟨'a', [], by decide, by decide, ?_⟩
    have hcreated : f.change ≠ .created := by rw [hdeleted]; decide
    rw [if_pos hdeleted, sidePath_nowhere, FilePatch.oldLabel, if_neg hcreated,
      f.sameName (by rw [hdeleted]; decide)]
    rfl
  · rw [if_neg hdeleted]
    exact ⟨'b', _, by decide, by decide, rfl⟩

theorem key_of_unquoted {f : FilePatch} (h : f.name.any needsQuote = false) :
    f.key = f.name.rdropWhile isSpace := by
  obtain ⟨x, absent, hspace, -, hkey⟩ := key_eq f
  rw [hkey, sidePath_plain hspace h f.relative.2]

theorem backslash_mem_key {f : FilePatch} (h : f.name.any needsQuote = true) : '\\' ∈ f.key := by
  obtain ⟨x, absent, -, hx, hkey⟩ := key_eq f
  rw [hkey]
  exact backslash_mem_sidePath hx h absent

theorem backslash_notMem_normalPath (name : Str) : '\\' ∉ normalPath name := by
  intro h
  obtain ⟨c, -, hc⟩ := List.mem_map.mp h
  split at hc
  · exact absurd hc (by decide)
  · rename_i hne
    exact hne hc

theorem normalPath_of_unquoted {name : Str} (h : name.any needsQuote = false) :
    normalPath name = name := by
  unfold normalPath
  refine (List.map_congr_left fun c hc => ?_).trans (List.map_id name)
  rw [List.any_eq_false] at h
  refine if_neg fun he => h c hc ?_
  rw [he]
  decide

/-- A plain name is the key of its file, and its path. -/
theorem key_of_plainName {f : FilePatch} (h : PlainName f.name) : f.key = normalPath f.name := by
  rw [key_of_unquoted h.unquoted, h.stripped, normalPath_of_unquoted h.unquoted]

/-- A file whose key is a path of the patch that no blank ends has a plain name. -/
theorem rdropWhile_key (f : FilePatch) (h : f.name.any needsQuote = false) :
    f.key.rdropWhile isSpace = f.key := by
  rw [key_of_unquoted h]
  exact List.rdropWhile_idempotent _ _

/-! ## 2.  Counting lines -/

theorem eq_of_flatMap_eq {α β : Type} {xs : List α} {a b : α → List β}
    (hle : ∀ x ∈ xs, (a x).length ≤ (b x).length) (h : xs.flatMap a = xs.flatMap b) :
    ∀ x ∈ xs, a x = b x := by
  have hsum : ∀ ys : List α, (∀ x ∈ ys, (a x).length ≤ (b x).length) →
      (ys.flatMap a).length ≤ (ys.flatMap b).length := by
    intro ys
    induction ys with
    | nil => exact fun _ => Nat.le_refl _
    | cons y ys ih =>
        intro hys
        obtain ⟨hy, hys⟩ := List.forall_mem_cons.mp hys
        have hrest := ih hys
        simp only [List.flatMap_cons, List.length_append]
        omega
  induction xs with
  | nil => exact fun x hx => absurd hx List.not_mem_nil
  | cons y xs ih =>
      obtain ⟨hy, hxs⟩ := List.forall_mem_cons.mp hle
      have hlen := congrArg List.length h
      have hrest := hsum xs hxs
      simp only [List.flatMap_cons, List.length_append] at h hlen
      obtain ⟨hfirst, htail⟩ := List.append_inj h (by omega)
      exact List.forall_mem_cons.mpr ⟨hfirst, ih hxs htail⟩

theorem length_numberLines (oldNo newNo : Nat) (ls : List PatchLine) :
    (numberLines oldNo newNo ls).length = ls.length := by
  induction ls generalizing oldNo newNo with
  | nil => rfl
  | cons l ls ih => rw [numberLines, List.length_cons, ih, List.length_cons]

theorem length_shownLines_le (b : Bool) (rendered oldNo newNo : Nat) (ls : List PatchLine) :
    (shownLines b rendered oldNo newNo ls).length ≤ ls.length := by
  induction ls generalizing rendered oldNo newNo with
  | nil => exact Nat.le_refl _
  | cons l ls ih =>
      rw [shownLines]
      split
      · exact Nat.le_succ_of_le (ih _ _ _)
      · exact Nat.succ_le_succ (ih _ _ _)

/-- With room for all lines and none hidden, all are shown. -/
theorem shownLines_of_room {b : Bool} {rendered : Nat} {ls : List PatchLine}
    (hroom : rendered + ls.length ≤ maxProjectedHunkLines) (hhidden : ∀ l ∈ ls, ¬ l.hidden b)
    (oldNo newNo : Nat) : shownLines b rendered oldNo newNo ls = numberLines oldNo newNo ls := by
  induction ls generalizing rendered oldNo newNo with
  | nil => rfl
  | cons l ls ih =>
      obtain ⟨hl, hls⟩ := List.forall_mem_cons.mp hhidden
      rw [List.length_cons] at hroom
      have hopen : ¬ (l.hidden b ∨ maxProjectedHunkLines ≤ rendered) := by
        rintro (h | h)
        · exact hl h
        · omega
      rw [shownLines, if_neg hopen, numberLines, ih (by omega) hls]

/-- A line that is hidden is missing. -/
theorem not_hidden_of_length {b : Bool} {rendered oldNo newNo : Nat} {ls : List PatchLine}
    (h : (shownLines b rendered oldNo newNo ls).length = ls.length) : ∀ l ∈ ls, ¬ l.hidden b := by
  induction ls generalizing rendered oldNo newNo with
  | nil => exact fun l hl => absurd hl List.not_mem_nil
  | cons l ls ih =>
      rw [shownLines] at h
      split at h
      · have hle := length_shownLines_le b rendered oldNo newNo ls
        rw [h, List.length_cons] at hle
        exact absurd hle (Nat.not_succ_le_self _)
      · rename_i hopen
        exact List.forall_mem_cons.mpr ⟨fun hl => hopen (.inl hl), ih (Nat.succ.inj h)⟩

/-- The lines of some hunks that are shown. -/
def shownOf (b : Bool) (path : Str) (rendered : Nat) (hs : List PatchHunk) : List HunkLine :=
  (shownHunks b path rendered hs).flatMap (·.2.lines)

/-- The lines of some hunks, numbered. -/
def numberHunks (hs : List PatchHunk) : List HunkLine :=
  hs.flatMap fun h => numberLines h.oldStart h.newStart h.lines

theorem shownOf_cons (b : Bool) (path : Str) (rendered : Nat) (h : PatchHunk)
    (hs : List PatchHunk) :
    shownOf b path rendered (h :: hs) =
      shownLines b rendered h.oldStart h.newStart h.lines ++
        shownOf b path
          (rendered + (shownLines b rendered h.oldStart h.newStart h.lines).length) hs := by
  unfold shownOf
  rw [shownHunks, List.flatMap_cons]

theorem numberHunks_cons (h : PatchHunk) (hs : List PatchHunk) :
    numberHunks (h :: hs) = numberLines h.oldStart h.newStart h.lines ++ numberHunks hs :=
  List.flatMap_cons

theorem length_shownOf_le (b : Bool) (path : Str) (rendered : Nat) (hs : List PatchHunk) :
    (shownOf b path rendered hs).length ≤ (numberHunks hs).length := by
  induction hs generalizing rendered with
  | nil => exact Nat.le_refl _
  | cons h hs ih =>
      rw [shownOf_cons, numberHunks_cons, List.length_append, List.length_append,
        length_numberLines]
      exact Nat.add_le_add (length_shownLines_le _ _ _ _ _) (ih _)

theorem shownOf_of_room {b : Bool} {path : Str} {rendered : Nat} {hs : List PatchHunk}
    (hroom : rendered + (numberHunks hs).length ≤ maxProjectedHunkLines)
    (hhidden : ∀ h ∈ hs, ∀ l ∈ h.lines, ¬ l.hidden b) :
    shownOf b path rendered hs = numberHunks hs := by
  induction hs generalizing rendered with
  | nil => rfl
  | cons h hs ih =>
      obtain ⟨hh, hhs⟩ := List.forall_mem_cons.mp hhidden
      rw [numberHunks_cons, List.length_append, length_numberLines] at hroom
      rw [shownOf_cons, numberHunks_cons, shownLines_of_room (by omega) hh, length_numberLines,
        ih (by omega) hhs]

theorem not_hidden_of_length_shownOf {b : Bool} {path : Str} {rendered : Nat}
    {hs : List PatchHunk} (h : (shownOf b path rendered hs).length = (numberHunks hs).length) :
    ∀ g ∈ hs, ∀ l ∈ g.lines, ¬ l.hidden b := by
  induction hs generalizing rendered with
  | nil => exact fun g hg => absurd hg List.not_mem_nil
  | cons g hs ih =>
      rw [shownOf_cons, numberHunks_cons, List.length_append, List.length_append,
        length_numberLines] at h
      have hfirst := length_shownLines_le b rendered g.oldStart g.newStart g.lines
      have hrest := length_shownOf_le b path
        (rendered + (shownLines b rendered g.oldStart g.newStart g.lines).length) hs
      have hlines : (shownLines b rendered g.oldStart g.newStart g.lines).length =
          g.lines.length := by omega
      have htail : (shownOf b path
          (rendered + (shownLines b rendered g.oldStart g.newStart g.lines).length) hs).length =
          (numberHunks hs).length := by omega
      exact List.forall_mem_cons.mpr ⟨not_hidden_of_length hlines, ih htail⟩

/-! ## 3.  Stored files -/

/-- The lines that `splitlines` makes of a line of a stored file. -/
def contentPieces (l : Bytes × Bool) : List Str :=
  if l.2 then splitLines (Utf8.decode l.1 ++ ['\n']) [] else splitLines (Utf8.decode l.1) []

theorem splitLines_file (bs line : Bytes) :
    splitLines (Utf8.decode (line.reverse ++ bs)) [] = (fileLines bs line).flatMap contentPieces := by
  induction bs generalizing line with
  | nil =>
      rw [List.append_nil]
      cases line with
      | nil => rfl
      | cons b line =>
          rw [fileLines, List.flatMap_singleton]
          · rfl
          · exact fun he => List.cons_ne_nil _ _ he
  | cons b bs ih =>
      rw [fileLines]
      by_cases hb : b = Utf8.newline
      · rw [if_pos hb, hb, Utf8.decode_append_newline, splitLines_append_newline,
          List.flatMap_cons, ← ih []]
        rfl
      · rw [if_neg hb, ← ih (b :: line), List.reverse_cons, List.append_assoc,
          List.singleton_append]

theorem splitLines_content_eq (content : Bytes) :
    splitLines (Utf8.decode content) [] = (fileLines content []).flatMap contentPieces :=
  splitLines_file content []

theorem fileLines_eq_nil {bs line : Bytes} (h : fileLines bs line = []) : bs = [] ∧ line = [] := by
  induction bs generalizing line with
  | nil =>
      cases line with
      | nil => exact ⟨rfl, rfl⟩
      | cons b line =>
          rw [fileLines] at h
          · exact absurd h (List.cons_ne_nil _ _)
          · exact fun he => List.cons_ne_nil _ _ he
  | cons b bs ih =>
      rw [fileLines] at h
      split at h
      · exact absurd h (List.cons_ne_nil _ _)
      · exact absurd (ih h).2 (List.cons_ne_nil _ _)

/-- A line that no newline ends is not empty. -/
theorem ne_nil_of_mem_fileLines {bs line : Bytes} {l : Bytes × Bool} (h : l ∈ fileLines bs line)
    (hended : l.2 = false) : l.1 ≠ [] := by
  induction bs generalizing line with
  | nil =>
      cases line with
      | nil => exact absurd h List.not_mem_nil
      | cons b line =>
          rw [fileLines] at h
          · rw [List.mem_singleton.mp h]
            exact fun he => List.cons_ne_nil _ _ (List.reverse_eq_nil_iff.mp he)
          · exact fun he => List.cons_ne_nil _ _ he
  | cons b bs ih =>
      rw [fileLines] at h
      split at h
      · rcases List.mem_cons.mp h with rfl | h
        · exact absurd hended Bool.noConfusion
        · exact ih h
      · exact ih h

theorem decode_ne_nil {content : Bytes} (h : content ≠ []) : Utf8.decode content ≠ [] :=
  fun he => h (Utf8.decodeFrom_eq_nil he).2

theorem contentPieces_ne_nil {bs line : Bytes} {l : Bytes × Bool} (h : l ∈ fileLines bs line) :
    contentPieces l ≠ [] := by
  unfold contentPieces
  cases hended : l.2 with
  | true =>
      rw [if_pos rfl]
      intro he
      exact List.append_ne_nil_of_right_ne_nil _ (List.cons_ne_nil _ _) (splitLines_eq_nil he).1
  | false =>
      rw [if_neg (by decide)]
      intro he
      exact decode_ne_nil (ne_nil_of_mem_fileLines h hended) (splitLines_eq_nil he).1

theorem contentPieces_plain {bs line : Bytes} {l : Bytes × Bool} (h : l ∈ fileLines bs line)
    (hwhole : Unbroken (lineText l.1 l.2)) : contentPieces l = [lineText l.1 l.2] := by
  unfold contentPieces
  cases hended : l.2 with
  | true =>
      rw [hended] at hwhole
      have hpieces := splitLines_content (unbroken_nil : Unbroken []) hwhole
      rw [List.nil_append] at hpieces
      rw [if_pos rfl, hpieces]
      rfl
  | false =>
      have htext : lineText l.1 false = Utf8.decode l.1 := by
        rcases lineText_cases l.1 false with hd | ⟨hd, -⟩
        · exact hd.symm
        · exact absurd hd (by decide)
      rw [hended, htext] at hwhole
      rw [if_neg (by decide), htext]
      exact splitLines_rest hwhole (decode_ne_nil (ne_nil_of_mem_fileLines h hended))

/-- The lines at the front of a file, when nothing breaks them, and the pieces of the rest. -/
theorem splitLines_front {content : Bytes} {n : Nat}
    (h : ∀ l ∈ (fileLines content []).take n, Unbroken (lineText l.1 l.2)) :
    splitLines (Utf8.decode content) [] =
      ((fileLines content []).take n).map (fun l => lineText l.1 l.2) ++
        ((fileLines content []).drop n).flatMap contentPieces := by
  rw [splitLines_content_eq]
  conv_lhs => rw [← List.take_append_drop n (fileLines content [])]
  rw [List.flatMap_append]
  have hfront : ((fileLines content []).take n).flatMap contentPieces =
      ((fileLines content []).take n).flatMap fun l => [lineText l.1 l.2] :=
    List.flatMap_congr fun l hl => contentPieces_plain (List.mem_of_mem_take hl) (h l hl)
  rw [hfront, ← List.map_eq_flatMap]

theorem length_projectLines (n : Nat) (ls : List Str) : (projectLines n ls).length = ls.length := by
  induction ls generalizing n with
  | nil => rfl
  | cons l ls ih => rw [projectLines, List.length_cons, ih, List.length_cons]

theorem map_text_projectLines (n : Nat) (ls : List Str) :
    (projectLines n ls).map (·.text) = ls := by
  induction ls generalizing n with
  | nil => rfl
  | cons l ls ih => rw [projectLines, List.map_cons, ih]

theorem addedLines_eq (n : Nat) (ls : List (Bytes × Bool)) :
    addedLines n ls = projectLines n (ls.map fun l => lineText l.1 l.2) := by
  induction ls generalizing n with
  | nil => rfl
  | cons l ls ih => rw [addedLines, List.map_cons, projectLines, ih]

theorem take_addedLines (k n : Nat) (ls : List (Bytes × Bool)) :
    (addedLines n ls).take k = addedLines n (ls.take k) := by
  induction ls generalizing k n with
  | nil => rw [List.take_nil, addedLines, List.take_nil]
  | cons l ls ih =>
      cases k with
      | zero => rfl
      | succ k => rw [addedLines, List.take_succ_cons, List.take_succ_cons, addedLines, ih]

end Coding
end VariantOne
