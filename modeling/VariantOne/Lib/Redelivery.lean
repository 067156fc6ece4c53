import Mathlib.Data.List.Basic
import Mathlib.Data.List.Nodup

/-!
# Delivery by reading again

A sender appends to a list.  A reader repeatedly reads what has not been acknowledged, at most a
window of it, and takes over what it does not know yet.  As long as what is acknowledged is known,
what the reader knows stays a prefix of what was sent: an item is taken over once, and in order.

`isPrefix_of_map` compares what is known with what was sent under a map, for a reader that keeps an item in
another form.
-/

namespace VariantOne
namespace Redelivery

variable {ι : Type} [DecidableEq ι]

/-- What has not been acknowledged. -/
def pending (sent acked : List ι) : List ι := sent.filter (· ∉ acked)

/-- What the reader knows after it has read a window of what is pending. -/
def read (n : Nat) (sent acked known : List ι) : List ι :=
  known ++ ((pending sent acked).take n).filter (· ∉ known)

/-- What is pending behind a prefix that holds everything acknowledged. -/
theorem pending_append {known rest acked : List ι} (hacked : acked ⊆ known)
    (hnodup : (known ++ rest).Nodup) :
    pending (known ++ rest) acked = pending known acked ++ rest := by
  unfold pending
  rw [List.filter_append]
  congr 1
  refine List.filter_eq_self.mpr fun x hx => ?_
  have hx' : x ∉ known := fun hk => (List.nodup_append.mp hnodup).2.2 x hk x hx rfl
  simpa using fun hack => hx' (hacked hack)

/-- **A read extends the prefix** by the next items. -/
theorem read_eq {known rest acked : List ι} (hacked : acked ⊆ known)
    (hnodup : (known ++ rest).Nodup) (n : Nat) :
    read n (known ++ rest) acked known = known ++ rest.take (n - (pending known acked).length) := by
  unfold read
  rw [pending_append hacked hnodup, List.take_append, List.filter_append]
  have hold : ((pending known acked).take n).filter (· ∉ known) = [] := by
    refine List.filter_eq_nil_iff.mpr fun x hx => ?_
    have hk := List.mem_of_mem_filter (List.mem_of_mem_take hx)
    simpa using hk
  have hnew : (rest.take (n - (pending known acked).length)).filter (· ∉ known) =
      rest.take (n - (pending known acked).length) := by
    refine List.filter_eq_self.mpr fun x hx => ?_
    have hx' : x ∉ known := fun hk =>
      (List.nodup_append.mp hnodup).2.2 x hk x (List.mem_of_mem_take hx) rfl
    simpa using hx'
  rw [hold, hnew, List.nil_append]

/-- What is known stays a prefix of what was sent. -/
theorem read_isPrefix {sent known acked : List ι} (hknown : known <+: sent)
    (hacked : acked ⊆ known) (hnodup : sent.Nodup) (n : Nat) : read n sent acked known <+: sent := by
  obtain ⟨rest, rfl⟩ := hknown
  rw [read_eq hacked hnodup]
  exact List.prefix_append_right_inj known |>.mpr (List.take_prefix _ _)

/-- What was sent is known after a read, unless the window was too small for it. -/
theorem mem_read {sent known acked : List ι} (hacked : acked ⊆ known) {n : Nat} {x : ι}
    (hx : x ∈ sent) (hwindow : x ∉ (pending sent acked).drop n) : x ∈ read n sent acked known := by
  unfold read
  by_cases hknown : x ∈ known
  · exact List.mem_append_left _ hknown
  · have hpending : x ∈ pending sent acked :=
      List.mem_filter.mpr ⟨hx, by simpa using fun hack => hknown (hacked hack)⟩
    rw [← List.take_append_drop n (pending sent acked), List.mem_append] at hpending
    exact List.mem_append_right _
      (List.mem_filter.mpr ⟨hpending.resolve_right hwindow, by simpa using hknown⟩)

theorem subset_read (n : Nat) (sent acked known : List ι) : known ⊆ read n sent acked known :=
  fun _ hx => List.mem_append_left _ hx

omit [DecidableEq ι] in
/-- Items that are known by their names: where the names are the first ones, so are the items. -/
theorem isPrefix_of_map {α : Type} {f : α → ι} {known sent : List α}
    (hnames : known.map f <+: sent.map f) (hsub : known ⊆ sent) (hnodup : (sent.map f).Nodup) :
    known <+: sent := by
  induction known generalizing sent with
  | nil => exact List.nil_prefix
  | cons x known ih =>
      cases sent with
      | nil => exact absurd (hsub List.mem_cons_self) List.not_mem_nil
      | cons y sent =>
          rw [List.map_cons, List.map_cons, List.cons_prefix_cons] at hnames
          obtain ⟨hname, hnames⟩ := hnames
          obtain rfl : x = y :=
            List.inj_on_of_nodup_map hnodup (hsub List.mem_cons_self) List.mem_cons_self hname
          obtain ⟨hother, hnodup⟩ := List.nodup_cons.mp hnodup
          refine List.cons_prefix_cons.mpr ⟨rfl, ih hnames (fun z hz => ?_) hnodup⟩
          rcases List.mem_cons.mp (hsub (List.mem_cons_of_mem _ hz)) with rfl | hz'
          · exact absurd (hnames.subset (List.mem_map_of_mem hz)) hother
          · exact hz'

end Redelivery
end VariantOne
