import Mathlib.Data.List.Nodup
import Mathlib.Order.Lattice
import VariantOne.Core.Value
import VariantOne.Lib.Json

/-!
# Recovery scans

`exhaustive_keyset_pages` yields a table page by page: every page starts after the cursor of the last
row before.  The scan ends with a page that is not full, or raises when the marker of a cursor comes a
second time.  The marker is the canonical JSON of the cursor, or else its `repr`.

`fetch` may answer differently at every call, so it is given the number of the call.
-/

namespace VariantOne
namespace KeysetPages

variable {ρ κ : Type}

/-- How cursors are written. -/
structure CursorText (κ : Type) where
  /-- `canonical_json(cursor)`, unless it raises `StrictJSONError`. -/
  canonicalJson : κ → Option String
  /-- `repr(cursor)` -/
  repr : κ → String

/-- The marker of a cursor. -/
def CursorText.marker (W : CursorText κ) (cursor : κ) : String := (W.canonicalJson cursor).getD (W.repr cursor)

inductive Ending where
  | exhausted
  | raised (e : Raised)
  deriving DecidableEq, Repr

/-- `RuntimeError("keyset pagination cursor did not advance")` -/
def stuck : Raised := ⟨.runtimeError, "keyset pagination cursor did not advance"⟩

variable (W : CursorText κ) (fetch : Nat → Option κ → Nat → Except Raised (List ρ)) (cursorOf : ρ → κ)

/-- The loop: what is yielded from the call `n` on, and how it ends, if `fuel` calls are enough. -/
def scan (size : Nat) : Nat → Nat → Option κ → List String → Option (List ρ × Ending)
  | 0, _, _, _ => none
  | fuel + 1, n, cursor, seen =>
      match fetch n cursor size with
      | .error e => some ([], .raised e)
      | .ok page =>
          match page.getLast? with
          | none => some ([], .exhausted)
          | some last =>
              let nextCursor := cursorOf last
              let marker := W.marker nextCursor
              if marker ∈ seen then some (page, .raised stuck)
              else if page.length < size then some (page, .exhausted)
              else
                (scan size fuel (n + 1) (some nextCursor) (marker :: seen)).map fun rest =>
                  (page ++ rest.1, rest.2)

/-- `exhaustive_keyset_pages`, consumed to its end: what it yields and how it ends. -/
def ExhaustiveKeysetPages (pageSize : Int) (rows : List ρ) (ending : Ending) : Prop :=
  ∃ fuel, scan W fetch cursorOf (max 1 pageSize).toNat fuel 0 none [] = some (rows, ending)

variable {W fetch cursorOf}

/-! ## 1.  Every scan ends -/

theorem exists_scan {size : Nat} {markers seen : List String} (hseen : seen.Nodup) (hmarkers : seen ⊆ markers)
    (hfetch : ∀ n cursor page, fetch n cursor size = .ok page → ∀ r ∈ page, W.marker (cursorOf r) ∈ markers)
    {left : Nat} (hleft : markers.length ≤ seen.length + left) (n : Nat) (cursor : Option κ) :
    ∃ fuel result, scan W fetch cursorOf size fuel n cursor seen = some result := by
  induction left generalizing seen n cursor with
  | zero =>
      refine ⟨1, ?_⟩
      rw [scan]
      cases hpage : fetch n cursor size with
      | error e => exact ⟨_, rfl⟩
      | ok page =>
          dsimp only
          cases hlast : page.getLast? with
          | none => exact ⟨_, rfl⟩
          | some last =>
              -- Every marker has been seen.
              have hin := hfetch n cursor page hpage last (List.mem_of_getLast? hlast)
              have hall : seen.Perm markers := (List.subperm_of_subset hseen hmarkers).perm_of_length_le hleft
              dsimp only
              rw [if_pos (hall.mem_iff.mpr hin)]
              exact ⟨_, rfl⟩
  | succ left ih =>
      cases hpage : fetch n cursor size with
      | error e => exact ⟨1, _, by rw [scan, hpage]⟩
      | ok page =>
          cases hlast : page.getLast? with
          | none => exact ⟨1, ([], .exhausted), by rw [scan, hpage]; dsimp only; rw [hlast]⟩
          | some last =>
              have hin := hfetch n cursor page hpage last (List.mem_of_getLast? hlast)
              by_cases hstuck : W.marker (cursorOf last) ∈ seen
              · refine ⟨1, (page, .raised stuck), ?_⟩
                rw [scan, hpage]
                dsimp only
                rw [hlast]
                dsimp only
                rw [if_pos hstuck]
              · obtain ⟨fuel, rest, hrest⟩ := @ih (W.marker (cursorOf last) :: seen)
                  (List.nodup_cons.mpr ⟨hstuck, hseen⟩) (List.cons_subset.mpr ⟨hin, hmarkers⟩)
                  (by rw [List.length_cons]; omega) (n + 1) (some (cursorOf last))
                refine ⟨fuel + 1, ?_⟩
                rw [scan, hpage]
                dsimp only
                rw [hlast]
                dsimp only
                rw [if_neg hstuck, hrest]
                split
                · exact ⟨_, rfl⟩
                · exact ⟨_, rfl⟩

/-- **A scan over finitely many cursors ends.** -/
theorem ends {pageSize : Int} {cursors : List κ}
    (hfetch : ∀ n cursor page, fetch n cursor (max 1 pageSize).toNat = .ok page →
      ∀ r ∈ page, cursorOf r ∈ cursors) :
    ∃ rows ending, ExhaustiveKeysetPages W fetch cursorOf pageSize rows ending := by
  have hleft : (cursors.map W.marker).length ≤ ([] : List String).length + cursors.length := by simp
  obtain ⟨fuel, ⟨rows, ending⟩, hscan⟩ := exists_scan List.nodup_nil (List.nil_subset _)
    (fun n cursor page hpage r hr => List.mem_map_of_mem (hfetch n cursor page hpage r hr)) hleft 0 none
  exact ⟨rows, ending, fuel, hscan⟩

/-! ## 2.  Tables that change -/

section Tables

variable [LinearOrder κ]

/-- The row comes after the cursor. -/
def After (cursorOf : ρ → κ) (cursor : Option κ) (r : ρ) : Prop := ∀ c, cursor = some c → c < cursorOf r

instance (cursor : Option κ) (r : ρ) : Decidable (After cursorOf cursor r) :=
  match cursor with
  | none => isTrue nofun
  | some c => decidable_of_iff (c < cursorOf r) ⟨fun h _ hc => Option.some.inj hc ▸ h, fun h => h c rfl⟩

/-- The first rows of a table after the cursor. -/
def firstRows (cursorOf : ρ → κ) (table : List ρ) (cursor : Option κ) (size : Nat) : List ρ :=
  (table.filter fun r => After cursorOf cursor r).take size

/-- Rows in strictly increasing order of their cursors. -/
def Ordered (cursorOf : ρ → κ) (rows : List ρ) : Prop := rows.Pairwise fun r r' => cursorOf r < cursorOf r'

/-- Cursors with one marker are the same. -/
def Marked (W : CursorText κ) (cursors : List κ) : Prop :=
  ∀ c ∈ cursors, ∀ c' ∈ cursors, W.marker c = W.marker c' → c = c'

/-- What a scan yields from a cursor on, over the tables it meets. -/
structure Yielded (cursorOf : ρ → κ) (tables : Nat → List ρ) (cursor : Option κ) (rows : List ρ) : Prop where
  ordered : Ordered cursorOf rows
  after : ∀ r ∈ rows, After cursorOf cursor r
  found : ∀ r ∈ rows, ∃ n, r ∈ tables n
  complete : ∀ r, (∀ n, r ∈ tables n) → After cursorOf cursor r → r ∈ rows

variable {tables : Nat → List ρ}

/-- The rows of a page and those after it. -/
theorem firstRows_complete {table : List ρ} (htable : Ordered cursorOf table) {cursor : Option κ} {size : Nat}
    {last r : ρ} (hlast : (firstRows cursorOf table cursor size).getLast? = some last) (hr : r ∈ table)
    (hafter : After cursorOf cursor r) (hle : cursorOf r ≤ cursorOf last) :
    r ∈ firstRows cursorOf table cursor size := by
  have hmem : r ∈ table.filter fun r => After cursorOf cursor r :=
    List.mem_filter.mpr ⟨hr, decide_eq_true hafter⟩
  have hsplit := List.take_append_drop size (table.filter fun r => After cursorOf cursor r)
  have hpair : Ordered cursorOf (table.filter fun r => After cursorOf cursor r) := List.Pairwise.filter _ htable
  rw [← hsplit] at hmem hpair
  rcases List.mem_append.mp hmem with hpage | hlater
  · exact hpage
  · have hlt := (List.pairwise_append.mp hpair).2.2 last (List.mem_of_getLast? hlast) r hlater
    exact absurd hlt (not_lt.mpr hle)

theorem mem_firstRows {table : List ρ} {cursor : Option κ} {size : Nat} {r : ρ}
    (h : r ∈ firstRows cursorOf table cursor size) : r ∈ table ∧ After cursorOf cursor r := by
  have hfilter := List.mem_filter.mp (List.mem_of_mem_take h)
  exact ⟨hfilter.1, of_decide_eq_true hfilter.2⟩

theorem ordered_firstRows {table : List ρ} (htable : Ordered cursorOf table) (cursor : Option κ) (size : Nat) :
    Ordered cursorOf (firstRows cursorOf table cursor size) :=
  (List.Pairwise.filter _ htable).sublist (List.take_sublist _ _)

/-- In a page in order the last row has the largest cursor. -/
theorem le_last {page : List ρ} (hpage : Ordered cursorOf page) {last : ρ} (hlast : page.getLast? = some last)
    {r : ρ} (hr : r ∈ page) : cursorOf r ≤ cursorOf last := by
  obtain ⟨before, rfl⟩ := List.getLast?_eq_some_iff.mp hlast
  rcases List.mem_append.mp hr with hr | hr
  · exact ((List.pairwise_append.mp hpage).2.2 r hr last (List.mem_singleton_self _)).le
  · rw [List.mem_singleton.mp hr]

theorem yielded_of_scan {size : Nat} (hsize : 0 < size) {cursors : List κ} (hmarked : Marked W cursors)
    (htables : ∀ n, Ordered cursorOf (tables n)) (hcursors : ∀ n, ∀ r ∈ tables n, cursorOf r ∈ cursors)
    {fuel n : Nat} {cursor : Option κ} {seen : List String}
    (hseen : ∀ m ∈ seen, ∃ c ∈ cursors, W.marker c = m ∧ ∀ r, After cursorOf cursor r → c < cursorOf r)
    {rows : List ρ} {ending : Ending}
    (hscan : scan W (fun n cursor size => .ok (firstRows cursorOf (tables n) cursor size)) cursorOf size fuel n
      cursor seen = some (rows, ending)) :
    ending = .exhausted ∧ Yielded cursorOf tables cursor rows := by
  induction fuel generalizing n cursor seen rows ending with
  | zero => cases hscan
  | succ fuel ih =>
      rw [scan] at hscan
      dsimp only at hscan
      cases hlast : (firstRows cursorOf (tables n) cursor size).getLast? with
      | none =>
          rw [hlast] at hscan
          obtain ⟨rfl, rfl⟩ := Prod.mk.inj (Option.some.inj hscan)
          have hnone : ((tables n).filter fun r => After cursorOf cursor r) = [] := by
            have htake := List.getLast?_eq_none_iff.mp hlast
            rw [firstRows, List.take_eq_nil_iff] at htake
            exact htake.resolve_left (Nat.ne_of_gt hsize)
          refine ⟨rfl, List.Pairwise.nil, by simp, by simp, fun r hr hafter => ?_⟩
          have hmem : r ∈ (tables n).filter fun r => After cursorOf cursor r :=
            List.mem_filter.mpr ⟨hr n, decide_eq_true hafter⟩
          rwa [hnone] at hmem
      | some last =>
          rw [hlast] at hscan
          dsimp only at hscan
          have hpage := ordered_firstRows (htables n) cursor size
          obtain ⟨hlastin, hlastafter⟩ := mem_firstRows (List.mem_of_getLast? hlast)
          have hnew : W.marker (cursorOf last) ∉ seen := fun hmem => by
            obtain ⟨c, hc, hmarker, hbefore⟩ := hseen _ hmem
            have heq := hmarked c hc _ (hcursors n last hlastin) hmarker
            exact absurd (hbefore last hlastafter) (heq ▸ lt_irrefl _)
          rw [if_neg hnew] at hscan
          split at hscan
          · rename_i hshort
            obtain ⟨rfl, rfl⟩ := Prod.mk.inj (Option.some.inj hscan)
            refine ⟨rfl, hpage, fun r hr => (mem_firstRows hr).2, fun r hr => ⟨n, (mem_firstRows hr).1⟩,
              fun r hr hafter => ?_⟩
            have hwhole : firstRows cursorOf (tables n) cursor size =
                (tables n).filter fun r => After cursorOf cursor r := by
              rw [firstRows, List.length_take] at hshort
              exact List.take_of_length_le (by omega)
            rw [hwhole]
            exact List.mem_filter.mpr ⟨hr n, decide_eq_true hafter⟩
          · obtain ⟨⟨rest, ending'⟩, hrest, heq⟩ := Option.map_eq_some_iff.mp hscan
            obtain ⟨rfl, rfl⟩ := Prod.mk.inj heq
            have hadvance : ∀ r, After cursorOf (some (cursorOf last)) r → cursorOf last < cursorOf r :=
              fun r hr => hr _ rfl
            have hwider : ∀ r, After cursorOf (some (cursorOf last)) r → After cursorOf cursor r :=
              fun r hr c hc => (hlastafter c hc).trans (hadvance r hr)
            obtain ⟨rfl, hyielded⟩ := ih (fun m hm => by
              rcases List.mem_cons.mp hm with rfl | hm
              · exact ⟨_, hcursors n last hlastin, rfl, hadvance⟩
              · obtain ⟨c, hc, hmarker, hbefore⟩ := hseen m hm
                exact ⟨c, hc, hmarker, fun r hr => hbefore r (hwider r hr)⟩) hrest
            refine ⟨rfl, List.pairwise_append.mpr ⟨hpage, hyielded.ordered, fun r hr r' hr' => ?_⟩,
              fun r hr => ?_, fun r hr => ?_, fun r hr hafter => ?_⟩
            · exact (le_last hpage hlast hr).trans_lt (hadvance r' (hyielded.after r' hr'))
            · rcases List.mem_append.mp hr with hr | hr
              · exact (mem_firstRows hr).2
              · exact hwider r (hyielded.after r hr)
            · rcases List.mem_append.mp hr with hr | hr
              · exact ⟨n, (mem_firstRows hr).1⟩
              · exact hyielded.found r hr
            · rcases le_or_gt (cursorOf r) (cursorOf last) with hle | hgt
              · exact List.mem_append_left _ (firstRows_complete (htables n) hlast (hr n) hafter hle)
              · exact List.mem_append_right _ (hyielded.complete r hr fun c hc => Option.some.inj hc ▸ hgt)

/-- Rows in order are determined by what they are. -/
theorem Ordered.eq_of_mem_iff {rows rows' : List ρ} (h : Ordered cursorOf rows) (h' : Ordered cursorOf rows')
    (hmem : ∀ r, r ∈ rows ↔ r ∈ rows') : rows = rows' := by
  have : Std.Antisymm fun r r' : ρ => cursorOf r < cursorOf r' := ⟨fun r r' hlt hgt => absurd hlt hgt.not_gt⟩
  have : Std.Irrefl fun r r' : ρ => cursorOf r < cursorOf r' := ⟨fun r => lt_irrefl _⟩
  exact List.Pairwise.eq_of_mem_iff h h' hmem

theorem Ordered.nodup {rows : List ρ} (h : Ordered cursorOf rows) : rows.Nodup :=
  h.imp fun hlt heq => absurd (heq ▸ hlt) (lt_irrefl _)

/-- **Recovery scans are exhaustive.**  Only the first two parts ask that cursors with one marker are the same. -/
structure Exhaustive (W : CursorText κ) (cursorOf : ρ → κ) (cursors : List κ) (pageSize : Int) : Prop where
  /-- A table is yielded, every row once and in order. -/
  table : Marked W cursors → ∀ table : List ρ, Ordered cursorOf table → (∀ r ∈ table, cursorOf r ∈ cursors) →
    ExhaustiveKeysetPages W (fun _ cursor size => .ok (firstRows cursorOf table cursor size)) cursorOf pageSize
      table .exhausted
  /-- Over a table that changes between fetches the scan ends, yields no row twice and yields every row
  that is there throughout. -/
  changing : Marked W cursors → ∀ tables : Nat → List ρ, (∀ n, Ordered cursorOf (tables n)) →
    (∀ n, ∀ r ∈ tables n, cursorOf r ∈ cursors) → ∃ rows,
      ExhaustiveKeysetPages W (fun n cursor size => .ok (firstRows cursorOf (tables n) cursor size)) cursorOf
        pageSize rows .exhausted ∧ rows.Nodup ∧ ∀ r, (∀ n, r ∈ tables n) → r ∈ rows
  /-- Any fetch over the cursors ends, by exhaustion or by raising. -/
  any : ∀ fetch : Nat → Option κ → Nat → Except Raised (List ρ),
    (∀ n cursor size page, fetch n cursor size = .ok page → ∀ r ∈ page, cursorOf r ∈ cursors) →
      ∃ rows ending, ExhaustiveKeysetPages W fetch cursorOf pageSize rows ending

theorem yielded_of_tables {cursors : List κ} (hmarked : Marked W cursors)
    (htables : ∀ n, Ordered cursorOf (tables n)) (hcursors : ∀ n, ∀ r ∈ tables n, cursorOf r ∈ cursors)
    (pageSize : Int) : ∃ rows,
      ExhaustiveKeysetPages W (fun n cursor size => .ok (firstRows cursorOf (tables n) cursor size)) cursorOf
        pageSize rows .exhausted ∧ Yielded cursorOf tables none rows := by
  obtain ⟨rows, ending, fuel, hscan⟩ : ∃ rows ending, ExhaustiveKeysetPages W
      (fun n cursor size => .ok (firstRows cursorOf (tables n) cursor size)) cursorOf pageSize rows ending :=
    ends fun n cursor page hpage r hr => by
      obtain rfl := Except.ok.inj hpage
      exact hcursors n r (mem_firstRows hr).1
  obtain ⟨rfl, hyielded⟩ := yielded_of_scan (by omega) hmarked htables hcursors (by simp) hscan
  exact ⟨rows, ⟨fuel, hscan⟩, hyielded⟩

/-- **Recovery scans are exhaustive**, over any finitely many cursors. -/
theorem scans_exhaustive (W : CursorText κ) (cursorOf : ρ → κ) (cursors : List κ) (pageSize : Int) :
    Exhaustive W cursorOf cursors pageSize where
  table := fun hmarked table htable hcursors => by
    obtain ⟨rows, hpages, hyielded⟩ := yielded_of_tables hmarked (fun _ => htable) (fun _ => hcursors) pageSize
    have hsame : rows = table := hyielded.ordered.eq_of_mem_iff htable fun r =>
      ⟨fun hr => (hyielded.found r hr).choose_spec, fun hr => hyielded.complete r (fun _ => hr) nofun⟩
    exact hsame ▸ hpages
  changing := fun hmarked tables htables hcursors => by
    obtain ⟨rows, hpages, hyielded⟩ := yielded_of_tables hmarked htables hcursors pageSize
    exact ⟨rows, hpages, hyielded.ordered.nodup, fun r hr => hyielded.complete r hr nofun⟩
  any := fun fetch hfetch => ends fun n cursor page hpage => hfetch n cursor _ page hpage

end Tables

/-- Numbers, written as JSON. -/
def numberText : CursorText Nat := ⟨fun n => some (toString n), fun n => toString n⟩

theorem scans_exhaustive_numbers : ExhaustiveKeysetPages numberText
    (fun _ cursor size => .ok (firstRows (fun n : Nat => n) [1, 2, 3] cursor size)) (fun n => n) 2 [1, 2, 3]
      .exhausted :=
  (scans_exhaustive numberText (fun n : Nat => n) [1, 2, 3] 2).table (by unfold Marked; decide) [1, 2, 3]
    (by unfold Ordered; decide) (by simp)

/-- Cursors whose `repr` does not show them. -/
def hiddenText : CursorText Nat := ⟨fun _ => none, fun _ => "Cursor()"⟩

/-- A table of which every fetch finds one new row. -/
def growing (n : Nat) : List Nat := [n]

theorem toString_injective {m n : Nat} (h : toString m = toString n) : m = n :=
  Json.toDigits_injective (by simpa [toString, Nat.repr] using congrArg String.toList h)

theorem scan_growing (fuel n : Nat) (cursor : Option Nat) (hcursor : ∀ c, cursor = some c → c < n)
    (seen : List String) (hseen : ∀ m ∈ seen, ∃ c < n, toString c = m) :
    scan numberText (fun n cursor size => .ok (firstRows (fun n => n) (growing n) cursor size)) (fun n => n) 1
      fuel n cursor seen = none := by
  induction fuel generalizing n cursor seen with
  | zero => rfl
  | succ fuel ih =>
      have hpage : firstRows (fun n => n) (growing n) cursor 1 = [n] := by
        unfold firstRows growing
        have hall : ∀ r ∈ [n], decide (After (fun n => n) cursor r) = true := fun r hr =>
          decide_eq_true (List.mem_singleton.mp hr ▸ hcursor)
        rw [List.filter_eq_self.mpr hall]
        rfl
      have hnew : numberText.marker n ∉ seen := fun hmem => by
        obtain ⟨c, hc, heq⟩ := hseen _ hmem
        exact absurd (toString_injective heq) (Nat.ne_of_lt hc)
      rw [scan]
      dsimp only
      rw [hpage]
      dsimp only [List.getLast?_singleton]
      rw [if_neg hnew, if_neg (by simp), ih (n + 1) (some n) (by simp)]
      · rfl
      · intro m hm
        rcases List.mem_cons.mp hm with rfl | hm
        · exact ⟨n, Nat.lt_succ_self n, rfl⟩
        · obtain ⟨c, hc, heq⟩ := hseen m hm
          exact ⟨c, Nat.lt_succ_of_lt hc, heq⟩

/-- Two cursors with one `repr` stop a scan, and a table that grows with every fetch is never exhausted. -/
theorem scan_not_exhaustive :
    (Ordered (fun n : Nat => n) [1, 2] ∧ ExhaustiveKeysetPages hiddenText
      (fun _ cursor size => .ok (firstRows (fun n => n) [1, 2] cursor size)) (fun n => n) 1 [1, 2]
        (.raised stuck)) ∧
    ((∀ n, Ordered (fun n : Nat => n) (growing n)) ∧ ¬ ∃ rows ending, ExhaustiveKeysetPages numberText
      (fun n cursor size => .ok (firstRows (fun n => n) (growing n) cursor size)) (fun n => n) 1 rows
        ending) := by
  refine ⟨⟨by unfold Ordered; decide, 2, by decide⟩, fun n => List.pairwise_singleton _ _, ?_⟩
  rintro ⟨rows, ending, fuel, hscan⟩
  have hnone := scan_growing fuel 0 none nofun [] nofun
  rw [show (max 1 (1 : Int)).toNat = 1 from rfl, hnone] at hscan
  cases hscan

end KeysetPages
end VariantOne
