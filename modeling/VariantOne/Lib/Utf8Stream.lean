import VariantOne.Lib.Utf8

/-!
# UTF-8 in chunks

A character may be begun in one chunk and continued in the next.  The incremental decoder keeps what is begun, so
what it reads of two chunks is what is read of their bytes together: `decodeFrom_append`.  At the end of the
stream a character that is begun is given up, like any other part that is not continued.
-/

namespace VariantOne
namespace Utf8

/-- What is read of a chunk, and what is begun at its end. -/
def feed : Option Begun → List UInt8 → List Char × Option Begun
  | q, [] => ([], q)
  | none, b :: bs => ((first b).1 ++ (feed (first b).2 bs).1, (feed (first b).2 bs).2)
  | some p, b :: bs =>
      if p.low ≤ b.toNat ∧ b.toNat ≤ p.high then
        match p.more with
        | 0 => (Char.ofNat (p.value * 64 + (b.toNat - 0x80)) :: (feed none bs).1, (feed none bs).2)
        | more + 1 => feed (some (.tails more (p.value * 64 + (b.toNat - 0x80)))) bs
      else (replacement :: ((first b).1 ++ (feed (first b).2 bs).1), (feed (first b).2 bs).2)

/-- Reading goes on where the chunk ended. -/
theorem decodeFrom_append (q : Option Begun) (a b : List UInt8) :
    decodeFrom q (a ++ b) = (feed q a).1 ++ decodeFrom (feed q a).2 b := by
  induction a generalizing q with
  | nil => cases q <;> rfl
  | cons c a ih =>
      cases q with
      | none => rw [List.cons_append, decodeFrom, feed, ih, List.append_assoc]
      | some p =>
          rw [List.cons_append, decodeFrom_some_cons, feed]
          split
          · cases p.more with
            | zero =>
                show _ :: _ = _ :: _ ++ _
                rw [ih, List.cons_append]
            | succ more => exact ih _
          · rw [ih, List.cons_append, List.append_assoc]

end Utf8
end VariantOne
