import Mathlib.Data.Fintype.Card

/-
  Fixed arrays of slots addressed by nonzero identifiers.

  A slot with identifier zero is vacant.  Lookups scan the
  array from the start, so they are functions only while the
  nonzero identifiers are distinct.

  Main rules:
    * `Slots.find_eq_some_iff`
    * `Slots.exists_vacant`
    * `Slots.Distinct.fill`
    * `Slots.Distinct.clear`
-/

-----
-- Lookup

namespace Slots

variable {n : Nat}

/- No two slots hold the same nonzero identifier. -/
def Distinct (ids : Fin n → Nat) : Prop := ∀ i j, ids i = ids j → ids i ≠ 0 → i = j

/- The first slot that holds a nonzero identifier. -/
def find (ids : Fin n → Nat) (id : Nat) : Option (Fin n) :=
  (List.finRange n).find? (fun i => ids i == id && id != 0)

/- The first vacant slot. -/
def vacant (ids : Fin n → Nat) : Option (Fin n) := (List.finRange n).find? (fun i => ids i == 0)

theorem find_eq_some_iff {ids : Fin n → Nat} (hDistinct : Distinct ids) {id : Nat} {i : Fin n} :
    find ids id = some i ↔ id ≠ 0 ∧ ids i = id := by
  unfold find
  constructor
  · intro hFind
    have hSome := List.find?_some hFind
    simp only [Bool.and_eq_true, beq_iff_eq, bne_iff_ne] at hSome
    exact ⟨hSome.2, hSome.1⟩
  · intro hHolds
    rcases hHolds with ⟨hNonzero, hId⟩
    cases hFind : (List.finRange n).find? (fun i => ids i == id && id != 0) with
    | none =>
      have hNone := List.find?_eq_none.mp hFind i (List.mem_finRange i)
      simp [hId, hNonzero] at hNone
    | some j =>
      have hSome := List.find?_some hFind
      simp only [Bool.and_eq_true, beq_iff_eq, bne_iff_ne] at hSome
      have hSame : j = i := by
        apply hDistinct j i
        · rw [hSome.1, hId]
        · rw [hSome.1]
          exact hNonzero
      rw [hSame]

theorem vacant_eq_some {ids : Fin n → Nat} {i : Fin n} (hVacant : vacant ids = some i) :
    ids i = 0 := by
  have hSome := List.find?_some hVacant
  simpa using hSome

/- Not all slots are taken. -/
theorem exists_vacant {ids : Fin n → Nat}
    (hRoom : (Finset.univ.filter (fun i => ids i ≠ 0)).card < n) : ∃ i, vacant ids = some i := by
  rw [← Option.isSome_iff_exists, vacant, List.find?_isSome]
  by_contra hFull
  push Not at hFull
  have hAll : Finset.univ.filter (fun i => ids i ≠ 0) = Finset.univ := by
    refine Finset.filter_true_of_mem fun i _ => ?_
    simpa using hFull i (List.mem_finRange i)
  simp [hAll] at hRoom

-----
-- Updates

/- Filling a slot with a fresh identifier. -/
theorem Distinct.fill {ids : Fin n → Nat} (hDistinct : Distinct ids) {id : Nat}
    (hFresh : ∀ i, ids i ≠ id) (slot : Fin n) : Distinct (Function.update ids slot id) := by
  intro i j hSame hNonzero
  by_cases hi : i = slot
  · by_cases hj : j = slot
    · rw [hi, hj]
    · rw [hi, Function.update_self, Function.update_of_ne hj] at hSame
      exact absurd hSame.symm (hFresh j)
  · by_cases hj : j = slot
    · rw [hj, Function.update_self, Function.update_of_ne hi] at hSame
      exact absurd hSame (hFresh i)
    · rw [Function.update_of_ne hi, Function.update_of_ne hj] at hSame
      rw [Function.update_of_ne hi] at hNonzero
      exact hDistinct i j hSame hNonzero

/- Vacating slots keeps identifiers distinct. -/
theorem Distinct.clear {ids ids' : Fin n → Nat} (hDistinct : Distinct ids)
    (hClear : ∀ i, ids' i = ids i ∨ ids' i = 0) : Distinct ids' := by
  intro i j hSame hNonzero
  have hi : ids' i = ids i := (hClear i).resolve_right hNonzero
  have hj : ids' j = ids j := by
    apply (hClear j).resolve_right
    rw [← hSame]
    exact hNonzero
  apply hDistinct i j
  · rw [← hi, ← hj]
    exact hSame
  · rw [← hi]
    exact hNonzero

end Slots
