/-!
# Stretches of code points

The character classes that names are sorted by hold thousands of characters.  They are written
down as stretches: every `step`-th code point from a first to a last one.  Step one is an unbroken
run; step two is the usual layout of an alphabet whose capitals and small letters alternate.

A table is a list of stretches in ascending order, none of which reaches into the next.  Looking a
code point up therefore ends at the first stretch that begins beyond it, and `cover_iff` says that
nothing is lost by ending there.
-/

namespace Pseudonym
namespace Unicode

/-- Every `step`-th code point from `first` to `last`. -/
structure Stretch where
  first : Nat
  last : Nat
  step : Nat

namespace Stretch

/-- Whether a code point lies on the stretch. -/
def has (s : Stretch) (n : Nat) : Bool :=
  s.first ≤ n && n ≤ s.last && (n - s.first) % s.step == 0

/-- Whether a code point lies on a stretch of an ascending table. -/
def cover : List Stretch → Nat → Bool
  | [], _ => false
  | s :: rest, n => s.first ≤ n && (s.has n || cover rest n)

/-- A code point on a stretch is not before its beginning. -/
theorem first_le_of_has {s : Stretch} {n : Nat} (h : s.has n = true) : s.first ≤ n := by
  simp only [has, Bool.and_eq_true, decide_eq_true_eq] at h
  exact h.1.1

/-- In a table whose beginnings ascend, looking up finds every code point on any stretch. -/
theorem cover_iff {table : List Stretch}
    (ascending : table.Pairwise fun s t => s.first ≤ t.first) (n : Nat) :
    cover table n = true ↔ ∃ s ∈ table, s.has n = true := by
  induction table with
  | nil => simp [cover]
  | cons s rest ih =>
    obtain ⟨before, ascending⟩ := List.pairwise_cons.1 ascending
    simp only [cover, Bool.and_eq_true, decide_eq_true_eq, Bool.or_eq_true, ih ascending,
      List.mem_cons, exists_eq_or_imp]
    constructor
    · exact fun h => h.2
    · rintro (h | ⟨t, mem, h⟩)
      · exact ⟨first_le_of_has h, .inl h⟩
      · exact ⟨Nat.le_trans (before t mem) (first_le_of_has h), .inr ⟨t, mem, h⟩⟩

end Stretch

end Unicode
end Pseudonym
