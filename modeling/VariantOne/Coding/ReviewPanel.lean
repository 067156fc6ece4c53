import VariantOne.Coding.Review

/-!
# What the panel shows

The rows of a patch are followed through `_patch_hunks`, row by row: what a header, a
label, the first row of a hunk and a line of it do to the cursor, and from these what is
made of a file (`foldl_read_file`) and of a patch (`patchHunks_patch`).  Whatever the
rows are, a line that is shown is unbroken and looks like no marker
(`showable_patchHunks`).

`patchHunks_patch` holds for patches whose rows nothing breaks and whose lines look like no marker;
`ReviewFaithful` shows that both are needed.  The induction is over the files of a patch and the hunks of a
file, with the cursor between two rows as the state.
-/

namespace VariantOne
namespace Coding

/-! ## 1.  The pieces of a row -/

/-- The lines that `splitlines` makes of a row. -/
def pieces (row : Bytes) : List Str := splitLines (Utf8.decode row ++ ['\n']) []

theorem splitLines_decode_lines (rows : List Bytes) :
    splitLines (Utf8.decode (Lines.lines Utf8.newline rows)) [] = rows.flatMap pieces := by
  rw [Utf8.decode_lines, splitLines_lines, List.flatMap_map]
  rfl

theorem pieces_encode {t : Str} (h : Unbroken t) : pieces (Utf8.encode t) = [t] := by
  rw [pieces, Utf8.decode_encode, splitLines_plain h]

theorem flatMap_pieces_encode {ts : List Str} (h : ∀ t ∈ ts, Unbroken t) :
    (ts.map Utf8.encode).flatMap pieces = ts := by
  induction ts with
  | nil => rfl
  | cons t ts ih =>
      rw [List.map_cons, List.flatMap_cons, pieces_encode (h t List.mem_cons_self),
        ih fun u hu => h u (List.mem_cons_of_mem _ hu), List.singleton_append]

/-- A carriage return before the newline is not part of the line. -/
theorem lineText_cases (content : Bytes) (ended : Bool) :
    Utf8.decode content = lineText content ended ∨
      ended = true ∧ Utf8.decode content = lineText content ended ++ ['\r'] := by
  unfold lineText
  simp only
  split
  · rename_i h
    obtain ⟨hended, hlast⟩ := h
    have hne : Utf8.decode content ≠ [] := by
      intro hnil
      rw [hnil] at hlast
      exact absurd hlast (by simp)
    rw [List.getLast?_eq_some_getLast hne] at hlast
    refine .inr ⟨hended, ?_⟩
    rw [← Option.some.inj hlast]
    exact (List.dropLast_append_getLast hne).symm
  · exact .inl rfl

/-- **A line that nothing breaks is one piece**, after whatever stands before it. -/
theorem splitLines_content {content : Bytes} {ended : Bool} {before : Str}
    (hbefore : Unbroken before) (h : Unbroken (lineText content ended)) :
    splitLines (before ++ Utf8.decode content ++ ['\n']) [] =
      [before ++ lineText content ended] := by
  have hline : Unbroken (before ++ lineText content ended) := unbroken_append.mpr ⟨hbefore, h⟩
  rcases lineText_cases content ended with hdecode | ⟨-, hdecode⟩
  · rw [hdecode, splitLines_plain hline]
  · have hsplit := splitLines_plain_return hline
    rw [hdecode]
    simpa only [List.append_assoc, List.cons_append, List.nil_append] using hsplit

/-- The pieces of a line that nothing breaks. -/
def PatchLine.pieces (suppressBlank : Bool) (l : PatchLine) : List Str :=
  (if l.hidden suppressBlank then [] else l.kind.sigil :: l.text) ::
    if l.ended then [] else [noNewline]

theorem unbroken_sigil (k : LineKind) : Unbroken [k.sigil] := by
  cases k <;> decide

theorem unbroken_noNewline : Unbroken noNewline := by decide +kernel

theorem flatMap_pieces_rows {suppressBlank : Bool} {l : PatchLine} (h : Unbroken l.text) :
    (l.rows suppressBlank).flatMap Coding.pieces = l.pieces suppressBlank := by
  have hend : (if l.ended = true then [] else [Utf8.encode noNewline]).flatMap Coding.pieces =
      if l.ended = true then [] else [noNewline] := by
    split
    · rfl
    · rw [List.flatMap_cons, pieces_encode unbroken_noNewline]
      rfl
  rw [PatchLine.rows, PatchLine.pieces, List.flatMap_cons, hend]
  by_cases hhidden : l.hidden suppressBlank
  · rw [if_pos hhidden, if_pos hhidden]
    rfl
  · rw [if_neg hhidden, if_neg hhidden, Coding.pieces, Utf8.decode_encode_append,
      splitLines_content (unbroken_sigil l.kind) h]
    rfl

/-- The first row of a hunk, decoded. -/
def PatchHunk.headText (h : PatchHunk) : Str :=
  h.rangeRow ++ if h.heading = [] then [] else ' ' :: Utf8.decode h.heading

theorem decode_headRow (h : PatchHunk) : Utf8.decode h.headRow = h.headText := by
  rw [PatchHunk.headRow, PatchHunk.headText, Utf8.decode_encode_append]
  split
  · rfl
  · rw [Utf8.decode_encode_append]
    rfl

def PatchHunk.pieces (suppressBlank : Bool) (h : PatchHunk) : List Str :=
  h.headText :: h.lines.flatMap (PatchLine.pieces suppressBlank)

def FilePatch.pieces (suppressBlank : Bool) (f : FilePatch) : List Str :=
  f.headRows ++ if f.hunks = [] then [] else
    f.labelRows ++ f.hunks.flatMap (PatchHunk.pieces suppressBlank)

/-- No row that names a file or begins a hunk is broken. -/
structure FilePatch.Uncut (f : FilePatch) : Prop where
  head : ∀ row ∈ f.headRows, Unbroken row
  labels : ∀ row ∈ f.labelRows, Unbroken row
  heading : ∀ h ∈ f.hunks, Unbroken h.headText

/-- No line of the file is broken. -/
def FilePatch.Whole (f : FilePatch) : Prop := ∀ h ∈ f.hunks, ∀ l ∈ h.lines, Unbroken l.text

theorem flatMap_congr_pieces {α : Type} {xs : List α} {rows : α → List Bytes}
    {want : α → List Str} (h : ∀ x ∈ xs, (rows x).flatMap pieces = want x) :
    (xs.flatMap rows).flatMap pieces = xs.flatMap want := by
  rw [List.flatMap_assoc]
  exact List.flatMap_congr h

theorem PatchHunk.flatMap_pieces_rows {suppressBlank : Bool} {h : PatchHunk}
    (hhead : Unbroken h.headText) (hlines : ∀ l ∈ h.lines, Unbroken l.text) :
    (h.rows suppressBlank).flatMap Coding.pieces = h.pieces suppressBlank := by
  rw [PatchHunk.rows, PatchHunk.pieces, List.flatMap_cons, Coding.pieces, decode_headRow,
    splitLines_plain hhead, List.singleton_append,
    flatMap_congr_pieces fun l hl => Coding.flatMap_pieces_rows (hlines l hl)]

theorem FilePatch.flatMap_pieces_rows {suppressBlank : Bool} {f : FilePatch} (hcut : f.Uncut)
    (hwhole : f.Whole) :
    (f.rows suppressBlank).flatMap Coding.pieces = f.pieces suppressBlank := by
  rw [FilePatch.rows, FilePatch.pieces, List.flatMap_append, flatMap_pieces_encode hcut.head]
  by_cases hunks : f.hunks = []
  · rw [if_pos hunks, if_pos hunks]
    rfl
  · rw [if_neg hunks, if_neg hunks, List.flatMap_append, flatMap_pieces_encode hcut.labels,
      flatMap_congr_pieces fun h hh =>
        PatchHunk.flatMap_pieces_rows (hcut.heading h hh) (hwhole h hh)]

/-- **The lines of a patch**, when nothing breaks them. -/
theorem splitLines_patch {suppressBlank : Bool} {files : List FilePatch}
    (hcut : ∀ f ∈ files, f.Uncut) (hwhole : ∀ f ∈ files, f.Whole) :
    splitLines (Utf8.decode (patch suppressBlank files)) [] =
      files.flatMap (FilePatch.pieces suppressBlank) := by
  rw [patch, splitLines_decode_lines]
  exact flatMap_congr_pieces fun f hf => f.flatMap_pieces_rows (hcut f hf) (hwhole f hf)

/-! ## 2.  Reading a row -/

theorem not_prefix_append {t w v : Str} (n : Nat) (hlen : (t.take n).length ≤ w.length)
    (h : ¬ t.take n <+: w) : ¬ t <+: w ++ v := by
  intro hpre
  have htake : t.take n <+: w ++ v := (List.take_prefix n t).trans hpre
  exact h (List.prefix_of_prefix_length_le htake (List.prefix_append w v) hlen)

theorem not_prefix_of_head {c d : Char} {t v : Str} (h : c ≠ d) : ¬ c :: t <+: d :: v :=
  fun hpre => h (List.cons_prefix_cons.mp hpre).1

theorem matchHunk_eq_none {raw : Str} (h : ¬ "@@ -".toList <+: raw) : matchHunk raw = none := by
  unfold matchHunk matchText
  rw [if_neg h]
  rfl

/-- A row that no marker begins. -/
structure Unmarked (raw : Str) : Prop where
  diff : ¬ "diff --git ".toList <+: raw
  minus : ¬ "--- ".toList <+: raw
  plus : ¬ "+++ ".toList <+: raw
  hunk : ¬ "@@ -".toList <+: raw

theorem read_unmarked {raw : Str} (h : Unmarked raw) (s : PatchCursor) :
    s.read raw = s.readBody raw := by
  unfold PatchCursor.read
  rw [if_neg h.diff, if_neg h.minus, if_neg h.plus, matchHunk_eq_none h.hunk]

theorem read_diffRow (s : PatchCursor) (v : Str) :
    s.read ("diff --git ".toList ++ v) =
      { s with path := [], oldPath := [], current := false, rendered := 0 } := by
  unfold PatchCursor.read
  exact if_pos (List.prefix_append _ _)

theorem unmarked_header (w : HeaderWord) (value : Str) : Unmarked (w.text ++ value) where
  diff := by cases w <;> exact not_prefix_append 3 (by decide +kernel) (by decide +kernel)
  minus := by cases w <;> exact not_prefix_append 3 (by decide +kernel) (by decide +kernel)
  plus := by cases w <;> exact not_prefix_append 3 (by decide +kernel) (by decide +kernel)
  hunk := by cases w <;> exact not_prefix_append 3 (by decide +kernel) (by decide +kernel)

theorem readBody_idle {s : PatchCursor} (h : s.current = false) (raw : Str) :
    s.readBody raw = s := by
  unfold PatchCursor.readBody
  exact if_pos (.inl h)

/-- The header rows of a file are passed over. -/
theorem foldl_read_header {s : PatchCursor} (h : s.current = false)
    (header : List (HeaderWord × Str)) :
    (header.map fun w => w.1.text ++ w.2).foldl PatchCursor.read s = s := by
  induction header with
  | nil => rfl
  | cons w header ih =>
      rw [List.map_cons, List.foldl_cons, read_unmarked (unmarked_header w.1 w.2),
        readBody_idle h, ih]

/-! ### Lines -/

/-- A line that does not look like a marker once its kind stands before it. -/
structure PatchLine.Quiet (l : PatchLine) : Prop where
  add : l.kind = .add → ¬ ['+', '+'] <+: l.text
  del : l.kind = .del → ¬ ['-', '-'] <+: l.text

theorem unmarked_line {l : PatchLine} (h : l.Quiet) : Unmarked (l.kind.sigil :: l.text) := by
  have hplus : "+++ ".toList = ['+', '+', '+', ' '] := rfl
  have hminus : "--- ".toList = ['-', '-', '-', ' '] := rfl
  constructor
  · cases l.kind <;> exact not_prefix_of_head (by decide)
  · rw [hminus]
    cases hkind : l.kind with
    | add => exact not_prefix_of_head (by decide)
    | ctx => exact not_prefix_of_head (by decide)
    | del =>
        intro hpre
        have htail := (List.cons_prefix_cons.mp hpre).2
        exact h.del hkind ((List.prefix_append ['-', '-'] [' ']).trans htail)
  · rw [hplus]
    cases hkind : l.kind with
    | del => exact not_prefix_of_head (by decide)
    | ctx => exact not_prefix_of_head (by decide)
    | add =>
        intro hpre
        have htail := (List.cons_prefix_cons.mp hpre).2
        exact h.add hkind ((List.prefix_append ['+', '+'] [' ']).trans htail)
  · cases l.kind <;> exact not_prefix_of_head (by decide)

theorem readBody_line {l : PatchLine} (h : l.Quiet) {s : PatchCursor} (hcurrent : s.current = true)
    (hroom : s.rendered < maxProjectedHunkLines) :
    s.readBody (l.kind.sigil :: l.text) = s.takeLine l.kind l.text := by
  have hopen : ¬ (s.current = false ∨ maxProjectedHunkLines ≤ s.rendered) := by
    rw [hcurrent]
    rintro (h | h)
    · exact absurd h (by decide)
    · exact absurd hroom (Nat.not_lt.mpr h)
  unfold PatchCursor.readBody
  rw [if_neg hopen]
  cases hkind : l.kind with
  | add =>
      have hquiet : ['+'] <+: LineKind.add.sigil :: l.text ∧
          ¬ ['+', '+', '+'] <+: LineKind.add.sigil :: l.text :=
        ⟨List.prefix_append ['+'] l.text, fun hp =>
          h.add hkind (List.cons_prefix_cons.mp hp).2⟩
      exact if_pos hquiet
  | del =>
      have hquiet : ['-'] <+: LineKind.del.sigil :: l.text ∧
          ¬ ['-', '-', '-'] <+: LineKind.del.sigil :: l.text :=
        ⟨List.prefix_append ['-'] l.text, fun hp =>
          h.del hkind (List.cons_prefix_cons.mp hp).2⟩
      rw [if_neg fun hp => not_prefix_of_head (by decide) hp.1, if_pos hquiet]
      rfl
  | ctx =>
      rw [if_neg fun hp => not_prefix_of_head (by decide) hp.1,
        if_neg fun hp => not_prefix_of_head (by decide) hp.1]
      exact if_pos (List.prefix_append [' '] l.text)

theorem readBody_full {s : PatchCursor} (h : maxProjectedHunkLines ≤ s.rendered) (raw : Str) :
    s.readBody raw = s := by
  unfold PatchCursor.readBody
  exact if_pos (.inr h)

theorem read_empty (s : PatchCursor) : s.read [] = s := by
  have hunmarked : Unmarked [] := by constructor <;> decide +kernel
  rw [read_unmarked hunmarked]
  unfold PatchCursor.readBody
  split
  · rfl
  · rfl

theorem read_noNewline (s : PatchCursor) : s.read noNewline = s := by
  have hunmarked : Unmarked noNewline := by constructor <;> decide +kernel
  rw [read_unmarked hunmarked]
  unfold PatchCursor.readBody
  split
  · rfl
  · rw [if_neg (by decide +kernel), if_neg (by decide +kernel), if_neg (by decide +kernel)]

theorem foldl_read_end (s : PatchCursor) (ended : Bool) :
    (if ended then [] else [noNewline]).foldl PatchCursor.read s = s := by
  cases ended with
  | true => rfl
  | false => exact read_noNewline s

theorem foldl_read_hidden {suppressBlank : Bool} {l : PatchLine} (h : l.hidden suppressBlank)
    (s : PatchCursor) : (l.pieces suppressBlank).foldl PatchCursor.read s = s := by
  rw [PatchLine.pieces, if_pos h, List.foldl_cons, read_empty, foldl_read_end]

theorem foldl_read_shut {suppressBlank : Bool} {l : PatchLine} (hquiet : l.Quiet)
    {s : PatchCursor} (h : s.current = false ∨ maxProjectedHunkLines ≤ s.rendered) :
    (l.pieces suppressBlank).foldl PatchCursor.read s = s := by
  by_cases hhidden : l.hidden suppressBlank
  · exact foldl_read_hidden hhidden s
  · rw [PatchLine.pieces, if_neg hhidden, List.foldl_cons, read_unmarked (unmarked_line hquiet)]
    have hskip : s.readBody (l.kind.sigil :: l.text) = s := by
      rcases h with h | h
      · exact readBody_idle h _
      · exact readBody_full h _
    rw [hskip, foldl_read_end]

theorem foldl_read_shown {suppressBlank : Bool} {l : PatchLine} (hquiet : l.Quiet)
    (hhidden : ¬ l.hidden suppressBlank) {s : PatchCursor} (hcurrent : s.current = true)
    (hroom : s.rendered < maxProjectedHunkLines) :
    (l.pieces suppressBlank).foldl PatchCursor.read s = s.takeLine l.kind l.text := by
  rw [PatchLine.pieces, if_neg hhidden, List.foldl_cons, read_unmarked (unmarked_line hquiet),
    readBody_line hquiet hcurrent hroom, foldl_read_end]

theorem appendLine_concat (line : HunkLine) (hs : List (Str × ReviewHunk)) (path : Str)
    (hunk : ReviewHunk) :
    appendLine line (hs ++ [(path, hunk)]) =
      hs ++ [(path, { hunk with lines := hunk.lines ++ [line] })] := by
  induction hs with
  | nil => rfl
  | cons h hs ih =>
      rw [List.cons_append, List.cons_append, ← ih]
      cases hs with
      | nil => rfl
      | cons h' hs => rfl

/-- The lines that are shown of a hunk, after so many of its file. -/
def shownLines (suppressBlank : Bool) : Nat → Nat → Nat → List PatchLine → List HunkLine
  | _, _, _, [] => []
  | rendered, oldNo, newNo, l :: ls =>
      if l.hidden suppressBlank ∨ maxProjectedHunkLines ≤ rendered then
        shownLines suppressBlank rendered oldNo newNo ls
      else
        l.shown oldNo newNo ::
          shownLines suppressBlank (rendered + 1) (l.kind.nextOld oldNo) (l.kind.nextNew newNo) ls

/-- **The lines of a hunk** go to it as long as there is room. -/
theorem foldl_read_lines (suppressBlank : Bool) {ls : List PatchLine} (hquiet : ∀ l ∈ ls, l.Quiet)
    {s : PatchCursor} {hs : List (Str × ReviewHunk)} {path : Str} {hunk : ReviewHunk}
    (hcurrent : s.current = true) (hresult : s.result = hs ++ [(path, hunk)]) :
    let shown := shownLines suppressBlank s.rendered s.oldNo s.newNo ls
    let t := (ls.flatMap (PatchLine.pieces suppressBlank)).foldl PatchCursor.read s
    t.result = hs ++ [(path, { hunk with lines := hunk.lines ++ shown })] ∧
      t.rendered = s.rendered + shown.length ∧ t.path = s.path ∧ t.current = true := by
  induction ls generalizing s hunk with
  | nil =>
      refine ⟨?_, rfl, rfl, hcurrent⟩
      rw [shownLines, List.append_nil]
      exact hresult
  | cons l ls ih =>
      have hl := hquiet l List.mem_cons_self
      have hls : ∀ l' ∈ ls, l'.Quiet := fun l' hl' => hquiet l' (List.mem_cons_of_mem _ hl')
      rw [List.flatMap_cons, List.foldl_append, shownLines]
      by_cases hskip : l.hidden suppressBlank ∨ maxProjectedHunkLines ≤ s.rendered
      · rw [if_pos hskip]
        have hsame : (l.pieces suppressBlank).foldl PatchCursor.read s = s := by
          rcases hskip with hhidden | hfull
          · exact foldl_read_hidden hhidden s
          · exact foldl_read_shut hl (.inr hfull)
        rw [hsame]
        exact ih hls hcurrent hresult
      · rw [if_neg hskip]
        obtain ⟨hhidden, hroom⟩ := not_or.mp hskip
        rw [foldl_read_shown hl hhidden hcurrent (Nat.lt_of_not_le hroom)]
        have htaken : (s.takeLine l.kind l.text).result =
            hs ++ [(path, { hunk with lines := hunk.lines ++ [l.shown s.oldNo s.newNo] })] := by
          show appendLine _ s.result = _
          rw [hresult, appendLine_concat]
          rfl
        obtain ⟨hres, hren, hpath, hcur⟩ := ih hls (s := s.takeLine l.kind l.text) hcurrent htaken
        refine ⟨?_, ?_, hpath, hcur⟩
        · rw [hres, List.append_assoc]
          rfl
        · rw [hren, List.length_cons]
          show s.rendered + 1 + _ = _
          rw [Nat.add_right_comm]
          rfl

/-! ### The numbers of a hunk -/

theorem decimal?_of_isDigit {c : Char} (h : c.isDigit = true) :
    decimal? c = some (c.toNat - '0'.toNat) := by
  obtain ⟨hlow, hhigh⟩ : 48 ≤ c.toNat ∧ c.toNat ≤ 57 := by
    simpa [Char.isDigit, UInt32.le_iff_toNat_le] using h
  have hfind : decimalZeros.find? (fun z => z ≤ c.toNat && c.toNat < z + 10) = some 0x30 := by
    refine List.find?_cons_of_pos ?_
    rw [Bool.and_eq_true, decide_eq_true_eq, decide_eq_true_eq]
    omega
  rw [decimal?, hfind]
  rfl

theorem foldl_decimal {ds : Str} (h : ∀ c ∈ ds, c.isDigit = true) (n : Nat) :
    ds.foldl (fun n c => 10 * n + (decimal? c).getD 0) n = Nat.ofDigitChars 10 ds n := by
  induction ds generalizing n with
  | nil => rfl
  | cons c ds ih =>
      obtain ⟨hc, hds⟩ := List.forall_mem_cons.mp h
      rw [List.foldl_cons, decimal?_of_isDigit hc, ih hds, Nat.ofDigitChars_cons]
      rfl

/-- A number that was written is matched, up to a character that is no digit. -/
theorem matchNumber_toDigits {n : Nat} {c : Char} (hc : decimal? c = none) (rest : Str) :
    matchNumber (Nat.toDigits 10 n ++ c :: rest) = some (n, c :: rest) := by
  have hdigit : ∀ d ∈ Nat.toDigits 10 n, d.isDigit = true := fun d hd =>
    Nat.isDigit_of_mem_toDigits (by decide) (by decide) hd
  have htake : (Nat.toDigits 10 n ++ c :: rest).takeWhile (fun c => (decimal? c).isSome) =
      Nat.toDigits 10 n := by
    rw [List.takeWhile_append_of_pos fun d hd => by rw [decimal?_of_isDigit (hdigit d hd)]; rfl,
      List.takeWhile_cons_of_neg (by rw [hc]; decide), List.append_nil]
  unfold matchNumber
  simp only [htake]
  rw [if_neg Nat.toDigits_ne_nil, foldl_decimal hdigit,
    Nat.ofDigitChars_toDigits (by decide) (by decide), List.drop_left]

theorem matchText_append (t s : Str) : matchText t (t ++ s) = some s := by
  unfold matchText
  rw [if_pos (List.prefix_append t s), List.drop_left]

theorem matchText_of_not_prefix {t s : Str} (h : ¬ t <+: s) : matchText t s = none := if_neg h

theorem matchRange_rangeText (start lines : Nat) (rest : Str) :
    matchRange (rangeText start lines ++ ' ' :: rest) = some (start, lines, ' ' :: rest) := by
  have hblank : decimal? ' ' = none := by decide +kernel
  have hcomma : decimal? ',' = none := by decide +kernel
  unfold matchRange rangeText
  by_cases hone : lines = 1
  · rw [if_pos hone, List.append_nil, matchNumber_toDigits hblank, Option.map_some,
      matchText_of_not_prefix (not_prefix_of_head (by decide)), hone]
    rfl
  · have hshape : Nat.toDigits 10 start ++ ',' :: Nat.toDigits 10 lines ++ ' ' :: rest =
        Nat.toDigits 10 start ++ ',' :: (Nat.toDigits 10 lines ++ ' ' :: rest) := by
      rw [List.append_assoc, List.cons_append]
    have hnumber : (matchText [','] (',' :: (Nat.toDigits 10 lines ++ ' ' :: rest))).bind
        matchNumber = some (lines, ' ' :: rest) := by
      have htext := matchText_append [','] (Nat.toDigits 10 lines ++ ' ' :: rest)
      rw [List.singleton_append] at htext
      rw [htext, Option.bind_some, matchNumber_toDigits hblank]
    rw [if_neg hone, hshape, matchNumber_toDigits hcomma, Option.map_some, hnumber]

/-- The numbers of a hunk, as its first row has them. -/
def PatchHunk.range (h : PatchHunk) : HunkRange := ⟨h.oldStart, h.oldLines, h.newStart, h.newLines⟩

/-- **The first row of a hunk is matched.** -/
theorem matchHunk_headText (h : PatchHunk) : matchHunk h.headText = some h.range := by
  obtain ⟨tail, htail⟩ : ∃ tail, h.headText = "@@ -".toList ++ (rangeText h.oldStart h.oldLines ++
      ' ' :: '+' :: (rangeText h.newStart h.newLines ++ ' ' :: '@' :: '@' :: tail)) := by
    refine ⟨if h.heading = [] then [] else ' ' :: Utf8.decode h.heading, ?_⟩
    simp [PatchHunk.headText, PatchHunk.rangeRow]
  have hplus : ∀ s : Str, matchText [' ', '+'] (' ' :: '+' :: s) = some s := fun s =>
    matchText_append [' ', '+'] s
  have hend : ∀ s : Str, matchText [' ', '@', '@'] (' ' :: '@' :: '@' :: s) = some s := fun s =>
    matchText_append [' ', '@', '@'] s
  unfold matchHunk
  rw [htail, matchText_append]
  simp only [Option.bind_eq_bind, Option.bind_some, matchRange_rangeText, hplus, hend]
  rfl

theorem headText_not_marked (h : PatchHunk) :
    ¬ "diff --git ".toList <+: h.headText ∧ ¬ "--- ".toList <+: h.headText ∧
      ¬ "+++ ".toList <+: h.headText := by
  obtain ⟨tail, htail⟩ : ∃ tail, h.headText = '@' :: tail := by
    unfold PatchHunk.headText PatchHunk.rangeRow
    exact ⟨_, rfl⟩
  rw [htail]
  exact ⟨not_prefix_of_head (by decide), not_prefix_of_head (by decide),
    not_prefix_of_head (by decide)⟩

theorem read_headText (h : PatchHunk) {s : PatchCursor} (hpath : s.path ≠ []) :
    s.read h.headText =
      { s with
        result := s.result ++ [(s.path, ⟨h.range, []⟩)]
        current := true
        oldNo := h.oldStart
        newNo := h.newStart } := by
  obtain ⟨hdiff, hminus, hplus⟩ := headText_not_marked h
  unfold PatchCursor.read
  rw [if_neg hdiff, if_neg hminus, if_neg hplus, matchHunk_headText]
  exact if_neg hpath

theorem read_headText_nowhere (h : PatchHunk) {s : PatchCursor} (hpath : s.path = [])
    (hcurrent : s.current = false) : s.read h.headText = s := by
  obtain ⟨hdiff, hminus, hplus⟩ := headText_not_marked h
  unfold PatchCursor.read
  rw [if_neg hdiff, if_neg hminus, if_neg hplus, matchHunk_headText]
  simp only
  rw [if_pos hpath, readBody_idle hcurrent]

/-! ## 3.  Reading a file -/

/-- The hunks that are made of a file, after so many lines of it. -/
def shownHunks (suppressBlank : Bool) (path : Str) : Nat → List PatchHunk → List (Str × ReviewHunk)
  | _, [] => []
  | rendered, h :: hs =>
      let shown := shownLines suppressBlank rendered h.oldStart h.newStart h.lines
      (path, ⟨h.range, shown⟩) :: shownHunks suppressBlank path (rendered + shown.length) hs

theorem foldl_read_hunks {suppressBlank : Bool} {hs : List PatchHunk}
    (hquiet : ∀ h ∈ hs, ∀ l ∈ h.lines, l.Quiet) {s : PatchCursor} (hpath : s.path ≠ []) :
    ((hs.flatMap (PatchHunk.pieces suppressBlank)).foldl PatchCursor.read s).result =
      s.result ++ shownHunks suppressBlank s.path s.rendered hs := by
  induction hs generalizing s with
  | nil => exact (List.append_nil _).symm
  | cons h hs ih =>
      have hls := hquiet h List.mem_cons_self
      have hrest : ∀ h' ∈ hs, ∀ l ∈ h'.lines, l.Quiet := fun h' hh' =>
        hquiet h' (List.mem_cons_of_mem _ hh')
      rw [List.flatMap_cons, List.foldl_append, PatchHunk.pieces, List.foldl_cons,
        read_headText h hpath]
      obtain ⟨hres, hren, hsame, -⟩ := foldl_read_lines suppressBlank hls
        (s := { s with
          result := s.result ++ [(s.path, ⟨h.range, []⟩)]
          current := true
          oldNo := h.oldStart
          newNo := h.newStart }) rfl rfl
      have hrun := ih hrest (s := (h.lines.flatMap (PatchLine.pieces suppressBlank)).foldl
        PatchCursor.read { s with
          result := s.result ++ [(s.path, ⟨h.range, []⟩)]
          current := true
          oldNo := h.oldStart
          newNo := h.newStart }) (by rw [hsame]; exact hpath)
      rw [hrun, hres, hren, hsame, List.append_assoc]
      rfl

theorem foldl_read_lines_shut {suppressBlank : Bool} {ls : List PatchLine}
    (hquiet : ∀ l ∈ ls, l.Quiet) {s : PatchCursor} (h : s.current = false) :
    (ls.flatMap (PatchLine.pieces suppressBlank)).foldl PatchCursor.read s = s := by
  induction ls with
  | nil => rfl
  | cons l ls ih =>
      rw [List.flatMap_cons, List.foldl_append, foldl_read_shut (hquiet l List.mem_cons_self) (.inl h),
        ih fun l' hl' => hquiet l' (List.mem_cons_of_mem _ hl')]

/-- Without a path no hunk is made. -/
theorem foldl_read_hunks_nowhere {suppressBlank : Bool} {hs : List PatchHunk}
    (hquiet : ∀ h ∈ hs, ∀ l ∈ h.lines, l.Quiet) {s : PatchCursor} (hpath : s.path = [])
    (hcurrent : s.current = false) :
    (hs.flatMap (PatchHunk.pieces suppressBlank)).foldl PatchCursor.read s = s := by
  induction hs with
  | nil => rfl
  | cons h hs ih =>
      rw [List.flatMap_cons, List.foldl_append, PatchHunk.pieces, List.foldl_cons,
        read_headText_nowhere h hpath hcurrent,
        foldl_read_lines_shut (hquiet h List.mem_cons_self) hcurrent,
        ih fun h' hh' => hquiet h' (List.mem_cons_of_mem _ hh')]

/-- The path that a value names, the absent side apart. -/
def sidePath (side label : Str) (absent : Str) : Str :=
  let path := dropSide side (stripChars label)
  if path = nowhere then absent else path

/-- The path under which the hunks of a file are kept. -/
def FilePatch.key (f : FilePatch) : Str :=
  sidePath "b/".toList f.newLabel (sidePath "a/".toList f.oldLabel [])

theorem foldl_read_labelRows (f : FilePatch) (s : PatchCursor) :
    f.labelRows.foldl PatchCursor.read s =
      { s with oldPath := sidePath "a/".toList f.oldLabel [], path := f.key } := by
  have hminus : ¬ "diff --git ".toList <+: "--- ".toList ++ f.oldLabel :=
    not_prefix_of_head (by decide)
  have hplus : ¬ "diff --git ".toList <+: "+++ ".toList ++ f.newLabel :=
    not_prefix_of_head (by decide)
  have hplus' : ¬ "--- ".toList <+: "+++ ".toList ++ f.newLabel := not_prefix_of_head (by decide)
  rw [FilePatch.labelRows, List.foldl_cons, List.foldl_cons, List.foldl_nil]
  have hold : s.read ("--- ".toList ++ f.oldLabel) =
      { s with oldPath := sidePath "a/".toList f.oldLabel [] } := by
    unfold PatchCursor.read
    rw [if_neg hminus, if_pos (List.prefix_append _ _)]
    rfl
  rw [hold]
  unfold PatchCursor.read
  rw [if_neg hplus, if_neg hplus', if_pos (List.prefix_append _ _)]
  rfl

/-- What is made of a file. -/
def FilePatch.shown (suppressBlank : Bool) (f : FilePatch) : List (Str × ReviewHunk) :=
  if f.key = [] then [] else shownHunks suppressBlank f.key 0 f.hunks

/-- No line of the file looks like a marker. -/
def FilePatch.Quiet (f : FilePatch) : Prop := ∀ h ∈ f.hunks, ∀ l ∈ h.lines, l.Quiet

/-- **A file is read** after whatever was read before it. -/
theorem foldl_read_file {suppressBlank : Bool} {f : FilePatch} (hquiet : f.Quiet)
    (s : PatchCursor) :
    ((f.pieces suppressBlank).foldl PatchCursor.read s).result =
      s.result ++ f.shown suppressBlank := by
  have hhead : f.headRows.foldl PatchCursor.read s =
      { s with path := [], oldPath := [], current := false, rendered := 0 } := by
    rw [FilePatch.headRows, List.append_assoc, List.append_assoc, List.foldl_cons, read_diffRow,
      foldl_read_header rfl]
  rw [FilePatch.pieces, List.foldl_append, hhead, FilePatch.shown]
  by_cases hunks : f.hunks = []
  · rw [if_pos hunks, hunks]
    split <;> exact (List.append_nil _).symm
  · rw [if_neg hunks, List.foldl_append, foldl_read_labelRows]
    by_cases hkey : f.key = []
    · rw [if_pos hkey, foldl_read_hunks_nowhere hquiet hkey rfl]
      exact (List.append_nil _).symm
    · rw [if_neg hkey, foldl_read_hunks hquiet hkey]

/-- **The hunks of a patch**, when nothing breaks its rows and no line looks like a marker. -/
theorem patchHunks_patch {suppressBlank : Bool} {files : List FilePatch}
    (hcut : ∀ f ∈ files, f.Uncut) (hwhole : ∀ f ∈ files, f.Whole)
    (hquiet : ∀ f ∈ files, f.Quiet) :
    patchHunks (patch suppressBlank files) = files.flatMap (FilePatch.shown suppressBlank) := by
  have hrun : ∀ (fs : List FilePatch) (s : PatchCursor), (∀ f ∈ fs, f.Quiet) →
      ((fs.flatMap (FilePatch.pieces suppressBlank)).foldl PatchCursor.read s).result =
        s.result ++ fs.flatMap (FilePatch.shown suppressBlank) := by
    intro fs
    induction fs with
    | nil => exact fun s _ => (List.append_nil _).symm
    | cons f fs ih =>
        intro s h
        rw [List.flatMap_cons, List.foldl_append, ih _ fun g hg => h g (List.mem_cons_of_mem _ hg),
          foldl_read_file (h f List.mem_cons_self), List.flatMap_cons, List.append_assoc]
  rw [patchHunks, splitLines_patch hcut hwhole, hrun files {} hquiet]
  rfl

/-! ## 4.  What no row makes -/

/-- A line that the panel can show. -/
structure HunkLine.Showable (l : HunkLine) : Prop where
  whole : Unbroken l.text
  add : l.kind = .add → ¬ ['+', '+'] <+: l.text
  del : l.kind = .del → ¬ ['-', '-'] <+: l.text

theorem mem_lines_appendLine {line : HunkLine} {hs : List (Str × ReviewHunk)}
    {h : Str × ReviewHunk} {l : HunkLine} (hh : h ∈ appendLine line hs) (hl : l ∈ h.2.lines) :
    l = line ∨ ∃ h' ∈ hs, l ∈ h'.2.lines := by
  induction hs using appendLine.induct with
  | case1 => exact absurd hh List.not_mem_nil
  | case2 path hunk =>
      rw [appendLine, List.mem_singleton] at hh
      rw [hh] at hl
      rcases List.mem_append.mp hl with hl | hl
      · exact .inr ⟨_, List.mem_singleton_self _, hl⟩
      · exact .inl (List.mem_singleton.mp hl)
  | case3 g hs hne ih =>
      rw [appendLine] at hh
      · rcases List.mem_cons.mp hh with rfl | hh
        · exact .inr ⟨_, List.mem_cons_self, hl⟩
        · rcases ih hh with h' | ⟨h', hmem, hl'⟩
          · exact .inl h'
          · exact .inr ⟨h', List.mem_cons_of_mem _ hmem, hl'⟩
      · exact hne

/-- Every line of the result can be shown. -/
def PatchCursor.Sound (s : PatchCursor) : Prop := ∀ h ∈ s.result, ∀ l ∈ h.2.lines, l.Showable

theorem PatchCursor.Sound.takeLine {s : PatchCursor} (hs : s.Sound) {kind : LineKind} {text : Str}
    (hwhole : Unbroken text) (hadd : kind = .add → ¬ ['+', '+'] <+: text)
    (hdel : kind = .del → ¬ ['-', '-'] <+: text) : (s.takeLine kind text).Sound := by
  intro h hh l hl
  rcases mem_lines_appendLine hh hl with rfl | ⟨h', hmem, hl'⟩
  · exact ⟨hwhole, hadd, hdel⟩
  · exact hs h' hmem l hl'

theorem unbroken_drop {s : Str} (h : Unbroken s) (n : Nat) : Unbroken (s.drop n) :=
  fun c hc => h c (List.mem_of_mem_drop hc)

theorem PatchCursor.Sound.readBody {s : PatchCursor} (hs : s.Sound) {raw : Str}
    (hraw : Unbroken raw) : (s.readBody raw).Sound := by
  have htext := unbroken_drop hraw 1
  have hdouble : ∀ c : Char, ¬ [c, c, c] <+: raw → [c] <+: raw → ¬ [c, c] <+: raw.drop 1 := by
    rintro c hthree ⟨rest, rfl⟩ htwo
    exact hthree (List.cons_prefix_cons.mpr ⟨rfl, htwo⟩)
  unfold PatchCursor.readBody
  split
  · exact hs
  split
  · rename_i h
    exact hs.takeLine htext (fun _ => hdouble _ h.2 h.1) (fun hk => absurd hk (by decide))
  split
  · rename_i h
    exact hs.takeLine htext (fun hk => absurd hk (by decide)) (fun _ => hdouble _ h.2 h.1)
  split
  · exact hs.takeLine htext (fun hk => absurd hk (by decide)) (fun hk => absurd hk (by decide))
  · exact hs

/-- **A row keeps the lines showable**, whatever it is. -/
theorem PatchCursor.Sound.read {s : PatchCursor} (hs : s.Sound) {raw : Str}
    (hraw : Unbroken raw) : (s.read raw).Sound := by
  unfold PatchCursor.read
  split
  · exact hs
  split
  · exact hs
  split
  · exact hs
  split
  · split
    · exact hs.readBody hraw
    · intro h hh l hl
      rcases List.mem_append.mp hh with hh | hh
      · exact hs h hh l hl
      · rw [List.mem_singleton.mp hh] at hl
        exact absurd hl List.not_mem_nil
  · exact hs.readBody hraw

/-- **Every line that is shown of a patch** is unbroken and looks like no marker. -/
theorem showable_patchHunks {payload : Bytes} {h : Str × ReviewHunk}
    (hh : h ∈ patchHunks payload) {l : HunkLine} (hl : l ∈ h.2.lines) : l.Showable := by
  have hrun : ∀ (rows : List Str) (s : PatchCursor), s.Sound → (∀ row ∈ rows, Unbroken row) →
      (rows.foldl PatchCursor.read s).Sound := by
    intro rows
    induction rows with
    | nil => exact fun s hs _ => hs
    | cons row rows ih =>
        intro s hs hrows
        exact ih _ (hs.read (hrows row List.mem_cons_self))
          fun row' hrow' => hrows row' (List.mem_cons_of_mem _ hrow')
  have hstart : PatchCursor.Sound {} := fun h hh => absurd hh List.not_mem_nil
  exact hrun _ {} hstart (fun row hrow => unbroken_of_mem_splitLines unbroken_nil hrow) h hh l hl

end Coding
end VariantOne
