import Mathlib.Order.Lattice.Nat

/-
  Finite sets of numbers, walked in ascending order.

  The walk is a filtered range, so it evaluates on closed
  sets.

  Main rules:
    * `Ordered.mem_ascending`
    * `Ordered.nodup_ascending`
-/

namespace Ordered

/- The members of a set, the smallest first. -/
def ascending (s : Finset Nat) : List Nat := (List.range (s.sup id + 1)).filter (· ∈ s)

variable {s : Finset Nat}

@[simp]
theorem mem_ascending {n : Nat} : n ∈ ascending s ↔ n ∈ s := by
  constructor
  · intro hMem
    have hFound := (List.mem_filter.mp hMem).2
    simpa using hFound
  · intro hMem
    have hBound : n ≤ s.sup id := Finset.le_sup (f := id) hMem
    exact List.mem_filter.mpr ⟨List.mem_range.mpr (by omega), by simpa using hMem⟩

theorem nodup_ascending : (ascending s).Nodup := List.nodup_range.filter _

end Ordered
