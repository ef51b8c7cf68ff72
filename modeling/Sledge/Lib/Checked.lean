import Sledge.Lib.Buffer

/-
  Computations over buffers whose bounds are checked.

  A computation ends with a value, with an error, or in a
  panic.  Reading or writing outside of a buffer panics.

  Main rules:
    * `Checked.bind_ok_iff`
    * `Checked.ensure_ok_iff`
    * `Checked.natAt_ok_iff`
    * `Checked.writes_eq`
    * `Checked.safe_bind_iff`
-/

-----
-- Computations

/- How a computation ends without a value. -/
inductive Fault (ε : Type) where
  | panicked
  | failed (error : ε)
deriving DecidableEq

abbrev Checked (ε α : Type) := Except (Fault ε) α

namespace Checked

variable {ε α β : Type}

def fail (error : ε) : Checked ε α := .error (.failed error)

/- Go on only where the condition holds. -/
def ensure (error : ε) (p : Prop) [Decidable p] : Checked ε Unit := if p then .ok () else fail error

@[simp]
theorem bind_ok_iff {x : Checked ε α} {f : α → Checked ε β} {r : β} :
    x >>= f = .ok r ↔ ∃ a, x = .ok a ∧ f a = .ok r := by
  cases x with
  | error fault | ok a => simp [bind, Except.bind]

@[simp]
theorem pure_ok_iff {a r : α} : (pure a : Checked ε α) = .ok r ↔ a = r := by
  simp [pure, Except.pure]

@[simp]
theorem ensure_ok_iff {error : ε} {p : Prop} [Decidable p] {u : Unit} :
    ensure error p = .ok u ↔ p := by
  unfold ensure fail
  split_ifs with hP <;> simp [hP]

@[simp]
theorem fail_ne_ok {error : ε} {r : α} : ¬ (fail error : Checked ε α) = .ok r := by
  simp [fail]

-----
-- Buffers

open Buffer

/- The bytes of a range, which has to lie in the buffer. -/
def span (b : List UInt8) (start stop : Nat) : Checked ε (List UInt8) :=
  if start ≤ stop ∧ stop ≤ b.length then
    .ok (slice b start stop)
  else .error .panicked

/- The little-endian number of a fixed width at a position. -/
def natAt (width : Nat) (b : List UInt8) (p : Nat) : Checked ε Nat := do
  let field ← span b p (p + width)
  return leNat field

def write (b : List UInt8) (p : Nat) (value : List UInt8) : Checked ε (List UInt8) :=
  if p + value.length ≤ b.length then .ok (put b p value)
  else .error .panicked

def writes : List UInt8 → List (Nat × List UInt8) → Checked ε (List UInt8)
  | b, [] => .ok b
  | b, (p, value) :: fields => do
      let b ← write b p value
      writes b fields

variable {b : List UInt8} {start stop p n : Nat}

@[simp]
theorem span_ok_iff {s : List UInt8} :
    (span b start stop : Checked ε (List UInt8)) = .ok s ↔ (start ≤ stop ∧ stop ≤ b.length) ∧
        slice b start stop = s := by
  unfold span
  split_ifs with hRange <;> simp [hRange]

@[simp]
theorem natAt_ok_iff {width : Nat} :
    (natAt width b p : Checked ε Nat) = .ok n ↔ p + width ≤ b.length ∧
        leNat (slice b p (p + width)) = n := by
  simp only [natAt, bind_ok_iff, span_ok_iff, pure_ok_iff]
  constructor
  · rintro ⟨_, ⟨⟨_, hRoom⟩, rfl⟩, hRead⟩
    exact ⟨hRoom, hRead⟩
  · rintro ⟨hRoom, hRead⟩
    exact ⟨_, ⟨⟨Nat.le_add_right _ _, hRoom⟩, rfl⟩, hRead⟩

/- Fields inside of the buffer are written without a panic. -/
theorem writes_eq {fields : List (Nat × List UInt8)}
    (hRoom : ∀ field ∈ fields, field.1 + field.2.length ≤ b.length) :
    (writes b fields : Checked ε (List UInt8)) = .ok (puts b fields) := by
  induction fields generalizing b with
  | nil => rfl
  | cons field fields ih =>
    have hFits := hRoom field List.mem_cons_self
    rw [writes, write, if_pos hFits]
    refine ih ?_
    intro other hOther
    rw [length_put]
    exact hRoom other (List.mem_cons_of_mem _ hOther)

theorem writes_placed {fields : List (Nat × List UInt8)} (hPlaced : Placed start fields b.length) :
    (writes b fields : Checked ε (List UInt8)) = .ok (puts b fields) :=
  writes_eq hPlaced.within

-----
-- Safety

/- The computation does not panic. -/
def Safe (x : Checked ε α) : Prop := x ≠ .error .panicked

@[simp]
theorem safe_bind_iff {x : Checked ε α} {f : α → Checked ε β} :
    Safe (x >>= f) ↔ Safe x ∧ ∀ a, x = .ok a → Safe (f a) := by
  cases x with
  | error fault => cases fault <;> simp [Safe, bind, Except.bind]
  | ok a => simp [Safe, bind, Except.bind]

@[simp]
theorem safe_pure (a : α) : Safe (pure a : Checked ε α) := by
  intro hPanic
  cases hPanic

@[simp]
theorem safe_fail (error : ε) : Safe (fail error : Checked ε α) := by
  intro hPanic
  cases hPanic

@[simp]
theorem safe_ensure (error : ε) (p : Prop) [Decidable p] : Safe (ensure error p) := by
  unfold ensure
  split_ifs
  · exact safe_pure ()
  · exact safe_fail error

variable {b : List UInt8} {start stop p : Nat}

@[simp]
theorem safe_span_iff :
    Safe (span b start stop : Checked ε (List UInt8)) ↔ start ≤ stop ∧ stop ≤ b.length := by
  unfold span
  split_ifs with hRange <;> simp [Safe, hRange]

@[simp]
theorem safe_natAt_iff {width : Nat} :
    Safe (natAt width b p : Checked ε Nat) ↔ p + width ≤ b.length := by
  simp [natAt, -bind_pure_comp]

end Checked
