import Mathlib.Data.Nat.ModEq

/-
  A ring of slots between one writer and one reader.

  The two indices run through `wrap` values and select a slot
  modulo `capacity`.  The content of the ring is the list
  of what was published and not consumed, and each of its
  elements is in the slot its index selects.

  Main rules:
    * `RingBuffer.Holds.size_eq`
    * `RingBuffer.Holds.read_eq_write_iff`
    * `RingBuffer.Holds.put`
    * `RingBuffer.Holds.publish`
    * `RingBuffer.Holds.consume`
-/

-----
-- Slots And Indices

/- Slots with the next index to write and to read. -/
structure RingBuffer (α : Type) (capacity : Nat) where
  slots : Vector α capacity
  write : Nat
  read : Nat
deriving Repr, DecidableEq

namespace RingBuffer

variable {α : Type} {capacity : Nat} [NeZero capacity]

/- The slot an index selects. -/
def slot (r : RingBuffer α capacity) (i : Nat) : α :=
  have hLt := Nat.mod_lt i (Nat.pos_of_neZero capacity)
  r.slots[i % capacity]

/- Fill the slot an index selects. -/
def put (r : RingBuffer α capacity) (i : Nat) (x : α) : RingBuffer α capacity :=
  { r with slots := r.slots.set (i % capacity) x (Nat.mod_lt i (Nat.pos_of_neZero capacity)) }

/- The number of elements in the ring, as unsigned difference. -/
def size (wrap : Nat) (r : RingBuffer α capacity) : Nat := (r.write + wrap - r.read) % wrap

theorem slot_put_self (r : RingBuffer α capacity) (i : Nat) (x : α) : (r.put i x).slot i = x := by
  simp [slot, put]

theorem slot_put_of_ne {r : RingBuffer α capacity} {i j : Nat} {x : α}
    (hOther : j % capacity ≠ i % capacity) : (r.put i x).slot j = r.slot j := by
  simp only [slot, put]
  exact Vector.getElem_set_ne _ _ hOther.symm

/- The unsigned distance to an index that lies ahead. -/
theorem offset_eq {wrap i k : Nat} (hIndex : i < wrap) (hOffset : k < wrap) :
    ((i + k) % wrap + wrap - i) % wrap = k := by
  by_cases hWraps : i + k < wrap
  · rw [Nat.mod_eq_of_lt hWraps,
      show i + k + wrap - i = k + wrap by omega,
      Nat.add_mod_right, Nat.mod_eq_of_lt hOffset]
  · have hMod : (i + k) % wrap = i + k - wrap := by
      rw [Nat.mod_eq_sub_mod (by omega),
        Nat.mod_eq_of_lt (by omega)]
    rw [hMod, show i + k - wrap + wrap - i = k by omega,
      Nat.mod_eq_of_lt hOffset]

/- Wrapping an index does not change the slot it selects. -/
theorem slot_mod {wrap : Nat} (hDvd : capacity ∣ wrap) (r : RingBuffer α capacity) (i : Nat) :
    r.slot (i % wrap) = r.slot i := by
  simp only [slot, Nat.mod_mod_of_dvd i hDvd]

-----
-- The Content Of A Ring

/- The ring holds exactly these elements, oldest first. -/
structure Holds (wrap : Nat) (r : RingBuffer α capacity) (pending : List α) : Prop where
  fits : pending.length ≤ capacity
  read_lt : r.read < wrap
  write_eq : r.write = (r.read + pending.length) % wrap
  slot_eq : ∀ i (h : i < pending.length), r.slot (r.read + i) = pending.get ⟨i, h⟩

namespace Holds

variable {wrap : Nat} {r : RingBuffer α capacity} {pending : List α}

theorem size_eq (hHolds : Holds wrap r pending) (hLt : capacity < wrap) :
    r.size wrap = pending.length := by
  unfold size
  rw [hHolds.write_eq]
  exact offset_eq hHolds.read_lt (Nat.lt_of_le_of_lt hHolds.fits hLt)

theorem read_eq_write_iff (hHolds : Holds wrap r pending) (hLt : capacity < wrap) :
    r.read = r.write ↔ pending = [] := by
  have hSize := hHolds.size_eq hLt
  have hRead := hHolds.read_lt
  constructor
  · intro hSame
    unfold size at hSize
    rw [hSame, Nat.add_sub_cancel_left, Nat.mod_self] at hSize
    exact List.length_eq_zero_iff.mp hSize.symm
  · rintro rfl
    rw [hHolds.write_eq, List.length_nil, Nat.add_zero, Nat.mod_eq_of_lt hRead]

/- Filling the next slot leaves the content alone. -/
theorem put (hHolds : Holds wrap r pending) (hDvd : capacity ∣ wrap)
    (hRoom : pending.length < capacity) (x : α) : Holds wrap (r.put r.write x) pending where
  fits := hHolds.fits
  read_lt := hHolds.read_lt
  write_eq := hHolds.write_eq
  slot_eq := by
    intro i hi
    rw [← hHolds.slot_eq i hi]
    refine slot_put_of_ne ?_
    rw [hHolds.write_eq, Nat.mod_mod_of_dvd _ hDvd]
    intro hSame
    have hMod : (r.read + i) ≡ (r.read + pending.length) [MOD capacity] := hSame
    have hOffset := hMod.add_left_cancel' r.read
    rw [Nat.ModEq, Nat.mod_eq_of_lt (by omega),
      Nat.mod_eq_of_lt hRoom] at hOffset
    omega

/- Moving the write index on publishes the filled slot. -/
theorem publish (hHolds : Holds wrap r pending) (hDvd : capacity ∣ wrap)
    (hRoom : pending.length < capacity) {x : α} (hSlot : r.slot r.write = x) :
    Holds wrap { r with write := (r.write + 1) % wrap } (pending ++ [x]) where
  fits := by
    simp only [List.length_append, List.length_singleton]
    omega
  read_lt := hHolds.read_lt
  write_eq := by
    simp [hHolds.write_eq, Nat.add_assoc]
  slot_eq := by
    intro i hi
    by_cases hOld : i < pending.length
    · have hSame := hHolds.slot_eq i hOld
      simp only [List.get_eq_getElem, List.getElem_append_left hOld] at hSame ⊢
      exact hSame
    · have hLast : i = pending.length := by
        simp only [List.length_append, List.length_singleton] at hi
        omega
      subst hLast
      rw [hHolds.write_eq, slot_mod hDvd] at hSlot
      simp only [List.get_eq_getElem, List.getElem_concat_length]
      exact hSlot

/- Moving the read index on consumes the oldest elements. -/
theorem consume (hHolds : Holds wrap r pending) (hDvd : capacity ∣ wrap) {count : Nat}
    (hCount : count ≤ pending.length) :
    Holds wrap { r with read := (r.read + count) % wrap } (pending.drop count) where
  fits := by
    have hFits := hHolds.fits
    simp only [List.length_drop]
    omega
  read_lt := Nat.mod_lt _ (by have := hHolds.read_lt; omega)
  write_eq := by
    simp only [List.length_drop, Nat.mod_add_mod]
    rw [hHolds.write_eq]
    congr 1
    omega
  slot_eq := by
    intro i hi
    simp only [List.length_drop] at hi
    have hSlot := hHolds.slot_eq (count + i) (by omega)
    have hWrapped : r.slot ((r.read + count) % wrap + i) = r.slot (r.read + (count + i)) := by
      rw [← slot_mod hDvd, Nat.mod_add_mod, slot_mod hDvd, Nat.add_assoc]
    simp only [List.get_eq_getElem, List.getElem_drop]
    exact hWrapped.trans hSlot

end Holds

end RingBuffer
