import Mathlib.Data.List.Basic
import Mathlib.Tactic.Ring

/-
  Byte buffers of fixed layouts.

  A field is written with `put` and read back with `slice`;
  numbers are little-endian.  A buffer is determined by the
  slices between the cuts of its layout.

  Main rules:
    * `Buffer.slice_put_self`
    * `Buffer.slice_put_of_disjoint`
    * `Buffer.leNat_leBytes`
    * `Buffer.leBytes_leNat`
    * `Buffer.puts_perm`
    * `Buffer.eq_puts_iff`
    * `Buffer.slice_eq_leBytes_iff`
    * `Buffer.puts_filter`
    * `Buffer.put_puts_nested`
-/

-----
-- Fields

namespace Buffer

/- The bytes from `start` up to `stop`. -/
def slice (b : List UInt8) (start stop : Nat) : List UInt8 := (b.drop start).take (stop - start)

/- Overwrite the bytes from `start` on; the size stays. -/
def put : List UInt8 → Nat → List UInt8 → List UInt8
  | [], _, _ => []
  | byte :: b, start + 1, value => byte :: put b start value
  | byte :: b, 0, [] => byte :: b
  | _ :: b, 0, v :: value => v :: put b 0 value

def zeros (n : Nat) : List UInt8 := List.replicate n 0

variable {b value : List UInt8} {start mid stop p : Nat}

@[simp]
theorem length_zeros (n : Nat) : (zeros n).length = n := List.length_replicate

theorem length_slice (hStop : stop ≤ b.length) : (slice b start stop).length = stop - start := by
  rw [slice, List.length_take, List.length_drop]
  omega

@[simp]
theorem length_put : (put b p value).length = b.length := by
  fun_induction put b p value <;> simp_all

theorem getElem?_slice (i : Nat) :
    (slice b start stop)[i]? = if i < stop - start then b[start + i]? else none := by
  rw [slice, List.getElem?_take, List.getElem?_drop]

theorem getElem?_put (i : Nat) : (put b p value)[i]? = if p ≤ i ∧ i < p + value.length then
        b[i]?.map (fun _ => value.getD (i - p) 0)
      else b[i]? := by
  fun_induction put b p value generalizing i with
  | case1 | case3 => simp
  | case2 byte b start value ih =>
    cases i with
    | zero => simp
    | succ i =>
      simp only [List.getElem?_cons_succ, ih]
      congr 1
      · simp
        omega
      · simp
  | case4 byte b v value ih =>
    cases i with
    | zero => simp
    | succ i =>
      simp only [List.getElem?_cons_succ, ih]
      simp

theorem slice_put_self (hRoom : p + value.length ≤ b.length) (hStop : stop = p + value.length) :
    slice (put b p value) p stop = value := by
  apply List.ext_getElem?
  intro i
  rw [getElem?_slice, getElem?_put]
  by_cases hInside : i < value.length
  · have hByte : b[p + i]? = some b[p + i] := List.getElem?_eq_getElem (by omega)
    rw [if_pos (by omega), if_pos (by omega), hByte,
      Option.map_some, Nat.add_sub_cancel_left,
      List.getD_eq_getElem?_getD,
      List.getElem?_eq_getElem hInside, Option.getD_some]
  · rw [if_neg (by omega)]
    exact (List.getElem?_eq_none (by omega)).symm

/- The other fields stay as they were. -/
theorem slice_put_of_disjoint (hApart : stop ≤ p ∨ p + value.length ≤ start) :
    slice (put b p value) start stop = slice b start stop := by
  apply List.ext_getElem?
  intro i
  rw [getElem?_slice, getElem?_slice]
  by_cases hInside : i < stop - start
  · rw [if_pos hInside, if_pos hInside, getElem?_put, if_neg (by omega)]
  · rw [if_neg hInside, if_neg hInside]

theorem slice_zeros {n : Nat} (hStop : stop ≤ n) :
    slice (zeros n) start stop = zeros (stop - start) := by
  rw [slice, zeros, zeros, List.drop_replicate, List.take_replicate]
  congr 1
  omega

theorem slice_slice {first last : Nat} (hLast : start + last ≤ stop) :
    slice (slice b start stop) first last = slice b (start + first) (start + last) := by
  apply List.ext_getElem?
  intro i
  simp only [getElem?_slice]
  by_cases hInside : i < last - first
  · rw [if_pos hInside, if_pos (by omega), if_pos (by omega)]
    congr 1
    omega
  · rw [if_neg hInside, if_neg (by omega)]

theorem slice_all (hStop : b.length ≤ stop) : slice b 0 stop = b := by
  rw [slice, List.drop_zero]
  exact List.take_of_length_le hStop

@[simp]
theorem slice_self : slice b p p = zeros 0 := by
  rw [slice, Nat.sub_self, List.take_zero]
  rfl

theorem eq_zeros_of_forall (hZero : ∀ v ∈ b, v = 0) : b = zeros b.length :=
  List.eq_replicate_iff.mpr ⟨rfl, hZero⟩

-----
-- Numbers

/- The lowest `width` bytes of a number. -/
def leBytes : Nat → Nat → List UInt8
  | 0, _ => []
  | width + 1, n => UInt8.ofNat n :: leBytes width (n / 256)

def leNat : List UInt8 → Nat
  | [] => 0
  | byte :: rest => byte.toNat + 256 * leNat rest

@[simp]
theorem length_leBytes (width n : Nat) : (leBytes width n).length = width := by
  induction width generalizing n with
  | zero => rfl
  | succ width ih => rw [leBytes, List.length_cons, ih]

theorem leNat_lt (b : List UInt8) : leNat b < 256 ^ b.length := by
  induction b with
  | nil => exact Nat.one_pos
  | cons byte rest ih =>
    have hByte : byte.toNat < 256 := byte.toNat_lt
    rw [leNat, List.length_cons, pow_succ]
    omega

theorem leNat_leBytes_mod (width n : Nat) : leNat (leBytes width n) = n % 256 ^ width := by
  induction width generalizing n with
  | zero => rw [leBytes, leNat, pow_zero, Nat.mod_one]
  | succ width ih =>
    have hByte : (UInt8.ofNat n).toNat = n % 256 := by rw [UInt8.toNat_ofNat']
    rw [leBytes, leNat, ih, hByte, pow_succ', Nat.mod_mul]

/- A number that fits is read back. -/
theorem leNat_leBytes {width n : Nat} (hFits : n < 256 ^ width) : leNat (leBytes width n) = n := by
  rw [leNat_leBytes_mod, Nat.mod_eq_of_lt hFits]

/- The bytes of a number that was read. -/
theorem leBytes_leNat (b : List UInt8) : leBytes b.length (leNat b) = b := by
  induction b with
  | nil => rfl
  | cons byte rest ih =>
    have hByte : byte.toNat < 256 := byte.toNat_lt
    have hQuotient : (byte.toNat + 256 * leNat rest) / 256 = leNat rest := by omega
    have hLow : UInt8.ofNat (byte.toNat + 256 * leNat rest) =
        byte := by
      apply UInt8.toNat.inj
      rw [UInt8.toNat_ofNat']
      omega
    rw [List.length_cons, leNat, leBytes, hQuotient, ih, hLow]

-----
-- Layouts

variable {a : List UInt8}

theorem slice_split (hStart : start ≤ mid) (hStop : mid ≤ stop) :
    slice b start stop = slice b start mid ++ slice b mid stop := by
  have hTail : slice b mid stop = ((b.drop start).drop (mid - start)).take (stop - mid) := by
    rw [slice, List.drop_drop]
    congr 2
    omega
  have hWhole : stop - start = mid - start + (stop - mid) := by omega
  rw [hTail, slice, slice, hWhole, List.take_add]

-----
-- Records

/- Write fields one after the other. -/
def puts (b : List UInt8) (fields : List (Nat × List UInt8)) : List UInt8 :=
  fields.foldl (fun b field => put b field.1 field.2) b

/- The fields come in order and end before `stop`. -/
def Placed : Nat → List (Nat × List UInt8) → Nat → Prop
  | start, [], stop => start ≤ stop
  | start, (p, value) :: fields, stop => start ≤ p ∧ Placed (p + value.length) fields stop

/- The fields are there, with zeros between and after them. -/
def Holds (b : List UInt8) : Nat → List (Nat × List UInt8) → Nat → Prop
  | start, [], stop => slice b start stop = zeros (stop - start)
  | start, (p, value) :: fields, stop =>
    slice b start p = zeros (p - start) ∧ slice b p (p + value.length) = value ∧
      Holds b (p + value.length) fields stop

variable {fields : List (Nat × List UInt8)}

@[simp]
theorem length_puts : (puts b fields).length = b.length := by
  induction fields generalizing b with
  | nil => rfl
  | cons field fields ih => exact ih.trans length_put

theorem Placed.le (hPlaced : Placed start fields stop) : start ≤ stop := by
  induction fields generalizing start with
  | nil => exact hPlaced
  | cons field fields ih =>
    have hTail := ih hPlaced.2
    have hHead := hPlaced.1
    omega

theorem Placed.within (hPlaced : Placed start fields stop) :
    ∀ field ∈ fields, field.1 + field.2.length ≤ stop := by
  intro field hField
  induction fields generalizing start with
  | nil => cases hField
  | cons first fields ih =>
    rcases List.mem_cons.mp hField with rfl | hRest
    · exact hPlaced.2.le
    · exact ih hPlaced.2 hRest

/- What lies before the fields stays. -/
theorem slice_puts_before {first last : Nat} (hPlaced : Placed start fields stop)
    (hBefore : last ≤ start) : slice (puts b fields) first last = slice b first last := by
  induction fields generalizing b start with
  | nil => rfl
  | cons field fields ih =>
    have hHead := hPlaced.1
    have hTail := ih (b := put b field.1 field.2) hPlaced.2 (by omega)
    exact hTail.trans (slice_put_of_disjoint (.inl (by omega)))

/- Fields written over zeros are held. -/
theorem holds_puts (hPlaced : Placed start fields stop) (hRoom : stop ≤ b.length)
    (hZeros : slice b start stop = zeros (stop - start)) :
    Holds (puts b fields) start fields stop := by
  induction fields generalizing b start with
  | nil => exact hZeros
  | cons field fields ih =>
    rcases field with ⟨p, value⟩
    have hHead : start ≤ p := hPlaced.1
    have hTail : Placed (p + value.length) fields stop := hPlaced.2
    have hEnd := hTail.le
    have hPart : ∀ first last, start ≤ first → last ≤ stop →
        slice b first last = zeros (last - first) := by
      intro first last hFirst hLast
      have hInner : slice (slice b start stop) (first - start) (last - start) =
          slice b first last := by
        by_cases hEmpty : last ≤ first
        · simp [slice, Nat.sub_eq_zero_of_le hEmpty,
            Nat.sub_eq_zero_of_le (Nat.sub_le_sub_right hEmpty start)]
        · rw [slice_slice (by omega)]
          congr 1 <;> omega
      rw [← hInner, hZeros, slice_zeros (by omega)]
      congr 1
      omega
    refine ⟨?_, ?_, ?_⟩
    · refine (slice_puts_before hTail (by omega)).trans ?_
      rw [slice_put_of_disjoint (.inl le_rfl)]
      exact hPart start p le_rfl (by omega)
    · refine (slice_puts_before hTail le_rfl).trans ?_
      have hFits : p + value.length ≤ b.length := by omega
      exact slice_put_self hFits rfl
    · refine ih hTail (by rwa [length_put]) ?_
      rw [slice_put_of_disjoint (.inr le_rfl)]
      exact hPart _ stop (by omega) le_rfl

/- The fields determine the bytes. -/
theorem Holds.unique (hA : Holds a start fields stop) (hB : Holds b start fields stop)
    (hPlaced : Placed start fields stop) : slice a start stop = slice b start stop := by
  induction fields generalizing start with
  | nil => exact Eq.trans hA (Eq.symm hB)
  | cons field fields ih =>
    rcases field with ⟨p, value⟩
    rcases hA with ⟨hGapA, hValueA, hTailA⟩
    rcases hB with ⟨hGapB, hValueB, hTailB⟩
    have hHead : start ≤ p := hPlaced.1
    have hEnd := hPlaced.2.le
    have hTail := ih hTailA hTailB hPlaced.2
    have hMid : p ≤ p + value.length := Nat.le_add_right _ _
    rw [slice_split hHead (hMid.trans hEnd), slice_split hHead (hMid.trans hEnd),
      slice_split hMid hEnd, slice_split hMid hEnd, hGapA, hGapB, hValueA, hValueB, hTail]

/- Fields in order do not overlap. -/
theorem Placed.apart (hPlaced : Placed start fields stop) {x y : Nat × List UInt8} (hX : x ∈ fields)
    (hY : y ∈ fields) : x = y ∨ x.1 + x.2.length ≤ y.1 ∨ y.1 + y.2.length ≤ x.1 := by
  have hAfter : ∀ {start : Nat} {fields : List (Nat × List UInt8)}, Placed start fields stop →
      ∀ field ∈ fields, start ≤ field.1 := by
    intro start fields hPlaced field hField
    induction fields generalizing start with
    | nil => cases hField
    | cons first fields ih =>
      rcases List.mem_cons.mp hField with rfl | hRest
      · exact hPlaced.1
      · have hHead : start ≤ first.1 := hPlaced.1
        have hTail := ih hPlaced.2 hRest
        omega
  induction fields generalizing start with
  | nil => cases hX
  | cons first fields ih =>
    rcases List.mem_cons.mp hX with rfl | hRestX
    · rcases List.mem_cons.mp hY with rfl | hRestY
      · exact .inl rfl
      · exact .inr (.inl (hAfter hPlaced.2 y hRestY))
    · rcases List.mem_cons.mp hY with rfl | hRestY
      · exact .inr (.inr (hAfter hPlaced.2 x hRestX))
      · exact ih hPlaced.2 hRestX hRestY

theorem put_comm {q : Nat} {other : List UInt8}
    (hApart : p + value.length ≤ q ∨ q + other.length ≤ p) :
    put (put b p value) q other = put (put b q other) p value := by
  apply List.ext_getElem?
  intro i
  simp only [getElem?_put]
  split_ifs <;> first | rfl | omega

/- The order of the writes does not matter. -/
theorem puts_perm {others : List (Nat × List UInt8)} (hPlaced : Placed start fields stop)
    (hPerm : fields.Perm others) : puts b fields = puts b others := by
  refine hPerm.foldl_eq' ?_ b
  intro x hX y hY z
  rcases hPlaced.apart hX hY with rfl | hApart
  · rfl
  · exact put_comm hApart

/- A buffer that holds the fields is the one written so. -/
theorem eq_puts_iff {n : Nat} (hPlaced : Placed 0 fields n) :
    b = puts (zeros n) fields ↔ b.length = n ∧ Holds b 0 fields n := by
  have hWritten : Holds (puts (zeros n) fields) 0 fields n := by
    refine holds_puts hPlaced (by simp) ?_
    exact slice_zeros le_rfl
  constructor
  · rintro rfl
    exact ⟨by simp, hWritten⟩
  · rintro ⟨hLength, hHolds⟩
    have hSame := hHolds.unique hWritten hPlaced
    rwa [slice_all (by omega), slice_all (by simp)] at hSame

theorem leNat_slice_lt (hRoom : stop ≤ b.length) :
    leNat (slice b start stop) < 256 ^ (stop - start) := by
  have hBound := leNat_lt (slice b start stop)
  rwa [length_slice hRoom] at hBound

/- A number in its field, read. -/
theorem slice_eq_leBytes_iff {n : Nat} (width : Nat) (hRoom : stop ≤ b.length)
    (hStop : stop = start + width) (hFits : n < 256 ^ width) :
    slice b start stop = leBytes width n ↔ leNat (slice b start stop) = n := by
  constructor
  · intro hField
    rw [hField, leNat_leBytes hFits]
  · intro hRead
    have hLength : (slice b start stop).length = width := by
      rw [length_slice hRoom]
      omega
    have hBytes := leBytes_leNat (slice b start stop)
    rw [hLength, hRead] at hBytes
    exact hBytes.symm

-----
-- Rewriting Records

variable {k n : Nat} {others : List (Nat × List UInt8)}

theorem puts_nil : puts b [] = b := rfl

theorem puts_cons {field : Nat × List UInt8} :
    puts b (field :: fields) = puts (put b field.1 field.2) fields :=
  rfl

theorem puts_append : puts b (fields ++ others) = puts (puts b fields) others :=
  List.foldl_append ..

/- The later of two writes to one place stays. -/
theorem put_put_same {other : List UInt8} (hLength : value.length = other.length) :
    put (put b p value) p other = put b p other := by
  apply List.ext_getElem?
  intro i
  simp only [getElem?_put, hLength]
  split_ifs
  · rw [Option.map_map]
    rfl
  · rfl

theorem put_zeros : put (zeros n) p (zeros k) = zeros n := by
  have hByte : ∀ j, (zeros k).getD j 0 = 0 := by
    intro j
    rw [zeros, List.getD_eq_getElem?_getD, List.getElem?_replicate]
    split_ifs <;> rfl
  apply List.ext_getElem?
  intro i
  simp only [getElem?_put, hByte]
  split_ifs
  · cases hRead : (zeros n)[i]? with
    | none => rfl
    | some byte =>
      have hMem := List.mem_of_getElem? hRead
      rw [List.eq_of_mem_replicate hMem]
      rfl
  · rfl

/- A write moves to the front past writes it is apart from. -/
theorem put_puts_comm
    (hApart : ∀ field ∈ fields, field.1 + field.2.length ≤ p ∨ p + value.length ≤ field.1) :
    put (puts b fields) p value = puts (put b p value) fields := by
  induction fields generalizing b with
  | nil => rfl
  | cons field fields ih =>
    have hHead := hApart field List.mem_cons_self
    have hTail := ih (b := put b field.1 field.2) (fun other hOther =>
          hApart other (List.mem_cons_of_mem _ hOther))
    exact hTail.trans (congrArg (puts · fields) (put_comm hHead))

theorem puts_zeros (hZeros : ∀ field ∈ fields, ∃ k, field.2 = zeros k) :
    puts (zeros n) fields = zeros n := by
  induction fields with
  | nil => rfl
  | cons field fields ih =>
    rcases hZeros field List.mem_cons_self with ⟨k, hField⟩
    rw [puts_cons, hField, put_zeros]
    exact ih fun other hOther =>
        hZeros other (List.mem_cons_of_mem _ hOther)

/- Fields of zeros may be left out. -/
theorem puts_filter (keep : Nat → Bool) (hPlaced : Placed start fields stop)
    (hZeros : ∀ field ∈ fields, keep field.1 = false → ∃ k, field.2 = zeros k) :
    puts (zeros n) fields = puts (zeros n) (fields.filter (fun field => keep field.1)) := by
  have hPerm : fields.Perm (fields.filter (fun field => !keep field.1) ++
      fields.filter (fun field => keep field.1)) := by
    refine .symm (List.perm_append_comm.trans ?_)
    exact List.filter_append_perm _ _
  rw [puts_perm hPlaced hPerm, puts_append, puts_zeros]
  intro field hField
  rcases List.mem_filter.mp hField with ⟨hMem, hKeep⟩
  exact hZeros field hMem (by simpa using hKeep)

def shift (k : Nat) (field : Nat × List UInt8) : Nat × List UInt8 := (k + field.1, field.2)

theorem put_put_nested {x : List UInt8} (hRoom : p + value.length ≤ x.length) :
    put b k (put x p value) = put (put b k x) (k + p) value := by
  apply List.ext_getElem?
  intro i
  simp only [getElem?_put, length_put, List.getD_eq_getElem?_getD]
  by_cases hOuter : k ≤ i ∧ i < k + x.length
  · by_cases hInner : p ≤ i - k ∧ i - k < p + value.length
    · have hByte : x[i - k]? = some x[i - k] := List.getElem?_eq_getElem (by omega)
      rw [if_pos hOuter, if_pos hInner, if_pos hOuter, if_pos (by omega), hByte, Option.map_map]
      congr 1
      funext _
      rw [Option.map_some, Option.getD_some, Function.comp_apply]
      congr 2
      omega
    · rw [if_pos hOuter, if_neg hInner, if_pos hOuter, if_neg (by omega)]
  · rw [if_neg hOuter, if_neg hOuter, if_neg (by omega)]

/- A record inside of a record. -/
theorem put_puts_nested {x : List UInt8}
    (hRoom : ∀ field ∈ fields, field.1 + field.2.length ≤ x.length) :
    put b k (puts x fields) = puts (put b k x) (fields.map (shift k)) := by
  induction fields generalizing x with
  | nil => rfl
  | cons field fields ih =>
    have hHead := hRoom field List.mem_cons_self
    have hTail := ih (x := put x field.1 field.2) (fun other hOther => by
          rw [length_put]
          exact hRoom other (List.mem_cons_of_mem _ hOther))
    refine Eq.trans hTail ?_
    rw [put_put_nested hHead]
    rfl

end Buffer
