import Mathlib.Algebra.Ring.Nat
import Mathlib.Data.List.Chain
import Sledge.Lib.Transition

/-
  The observation ring of the compositor
  (`native/hyprland/causal_timing.hpp`).

  Calls of `record` and `read` interleave.  Every access to a
  counter, to the flag of a slot or to a part of its value is
  one step, so that a value read while it is written would
  show parts of two records.

  Main results:
    * `run_kept`
    * `stored_newer`
    * `seen_newest`
    * `pages_ids`
    * `history_reported`
    * `newest_paged`
-/

-----
-- Calls And Slots

namespace Sledge.Native.CausalTiming

open Transition

def capacity : Nat := 2048

/- What a record says of its packet is an `α`. -/
structure Record (α : Type) where
  id : Nat
  evidence : α

structure Slot (α : Type) where
  busy : Bool
  value : Record α

/- A call of `record` is known by the index it reserves. -/
inductive Caller where
  | recorder (index : Nat)
  | reader (call slot : Nat)
deriving DecidableEq

/- Where a call stands, by the access it makes next. -/
inductive Place (α : Type) where
  | outside
  -- `record`
  | reserved (evidence : α)
  | comparing (evidence : α)
  | writing (evidence : α)
  | written (evidence : α)
  | refused
  | stale
  | leaving
  -- `read`
  | asking
  | reading
  | copying (id : Nat)
  | copied (record : Record α)

structure Ring (α : Type) where
  slots : Nat → Slot α
  places : Caller → Place α
  next : Nat
  dropped : Nat

inductive Op (α : Type) where
  | record (evidence : α)
  | read (call slot : Nat)
  | advance (caller : Caller)

inductive Out (α : Type) where
  | silent
  | drop
  | stored (slot : Nat) (record : Record α)
  | seen (slot : Nat) (record : Option (Record α))

def Caller.slot : Caller → Nat
  | .recorder index => index % capacity
  | .reader _ slot => slot

/- The id a call of `record` gives. -/
def Caller.id : Caller → Nat
  | .recorder index => index + 1
  | .reader _ _ => 0

variable {α : Type}

def Out.drops : Out α → Nat
  | .drop => 1
  | _ => 0

/- The next access of a call, to its slot or to `dropped`. -/
def access (caller : Caller) (slot : Slot α) : Place α → Option (Slot α × Place α × Out α)
  | .outside => none
  | .reserved evidence =>
    if slot.busy then some (slot, .refused, .silent)
    else some ({ slot with busy := true }, .comparing evidence, .silent)
  | .comparing evidence =>
    -- A delayed writer does not replace newer evidence.
    if caller.id < slot.value.id then some (slot, .stale, .silent)
    else some (slot, .writing evidence, .silent)
  | .writing evidence =>
    some ({ slot with value := { slot.value with id := caller.id } }, .written evidence, .silent)
  | .written evidence =>
    some ({ slot with value := { slot.value with evidence := evidence } }, .leaving,
      .stored caller.slot ⟨caller.id, evidence⟩)
  | .refused => some (slot, .outside, .drop)
  | .stale => some (slot, .leaving, .drop)
  | .leaving => some ({ slot with busy := false }, .outside, .silent)
  | .asking =>
    if slot.busy then some (slot, .outside, .seen caller.slot none)
    else some ({ slot with busy := true }, .reading, .silent)
  | .reading => some (slot, .copying slot.value.id, .silent)
  | .copying id => some (slot, .copied ⟨id, slot.value.evidence⟩, .silent)
  | .copied record =>
    some ({ slot with busy := false }, .outside,
      .seen caller.slot (if record.id ≠ 0 then some record else none))

def step (s : Ring α) : Op α → Option (Ring α × Out α)
  | .record evidence =>
    -- The counter has 64 bits.
    if s.next + 1 < 2 ^ 64 then
      let places := Function.update s.places (.recorder s.next) (.reserved evidence)
      some ({ s with places := places, next := s.next + 1 }, .silent)
    else none
  | .read call slot =>
    match s.places (.reader call slot) with
    | .outside =>
      if slot < capacity then
        some ({ s with places := Function.update s.places (.reader call slot) .asking }, .silent)
      else some (s, .seen slot none)
    | _ => none
  | .advance caller =>
    match access caller (s.slots caller.slot) (s.places caller) with
    | none => none
    | some (slot, place, out) =>
      let slots := Function.update s.slots caller.slot slot
      let places := Function.update s.places caller place
      some (⟨slots, places, s.next, s.dropped + out.drops⟩, out)

-----
-- Pages

/- `stop` is the `end` of the source. -/
structure Cut where
  start : Nat
  stop : Nat
  cursor : Nat
  limit : Nat

/- An index of a page, from the answer of `read`: a record, or a missing id. -/
def report (reads : Nat → Option (Record α)) (i : Nat) : Except Nat (Record α) :=
  match (reads i).filter (fun record => record.id == i + 1) with
  | some record => .ok record
  | none => .error (i + 1)

/- The reports of a page and its next cursor. -/
def page (cut : Cut) (observed : Nat) (reads : Nat → Option (Record α)) :
    Option (List (Except Nat (Record α)) × Nat) :=
  if cut.cursor < cut.start ∨ cut.stop < cut.cursor ∨ observed < cut.stop ∨
      capacity < cut.stop - cut.start ∨ cut.limit < 1 ∨ 12 < cut.limit then none
  else
    let count := min cut.limit (cut.stop - cut.cursor)
    some ((List.range' cut.cursor count).map (report reads), cut.cursor + count)

/- Page after page, until one is the last. -/
def pages (start stop limit : Nat) :
    Nat → List (Nat × (Nat → Option (Record α))) → Option (List (Except Nat (Record α)))
  | _, [] => none
  | cursor, (observed, reads) :: rest =>
    match page ⟨start, stop, cursor, limit⟩ observed reads with
    | none => none
    | some (reports, next) =>
      if next = stop then some reports
      else (pages start stop limit next rest).map (reports ++ ·)

def idOf : Except Nat (Record α) → Nat
  | .ok record => record.id
  | .error id => id

theorem idOf_report (reads : Nat → Option (Record α)) (i : Nat) :
    idOf (report reads i) = i + 1 := by
  unfold report
  split
  · rename_i hFound
    exact eq_of_beq (Option.filter_eq_some_iff.mp hFound).2
  · rfl

/- A page reports on the ids up to its next cursor. -/
theorem page_ids (reads : Nat → Option (Record α)) (cursor count : Nat) :
    ((List.range' cursor count).map (report reads)).map idOf = List.range' (cursor + 1) count := by
  refine List.ext_getElem (by simp) ?_
  intro i _ _
  simp only [List.getElem_map, List.getElem_range', idOf_report]
  omega

section

variable {start stop limit cursor : Nat} {answers : List (Nat × (Nat → Option (Record α)))}
variable (hStart : start ≤ cursor) (hStop : cursor ≤ stop) (hRoom : stop - start ≤ capacity)
variable (hLimit : 1 ≤ limit ∧ limit ≤ 12) (hObserved : ∀ answer ∈ answers, stop ≤ answer.1)
variable (hEnough : max 1 (stop - cursor) ≤ limit * answers.length)

include hStart hStop hRoom hLimit hObserved hEnough

theorem pages_complete : ∃ reports, pages start stop limit cursor answers = some reports ∧
    reports.map idOf = List.range' (cursor + 1) (stop - cursor) := by
  induction answers generalizing cursor with
  | nil => simp at hEnough
  | cons answer rest ih =>
    rcases List.forall_mem_cons.mp hObserved with ⟨hFirst, hRest⟩
    rw [List.length_cons, Nat.mul_succ] at hEnough
    simp only [pages, page]
    rw [if_neg (by omega)]
    dsimp only
    split_ifs with hLast
    · refine ⟨_, rfl, ?_⟩
      rw [page_ids]
      congr
      omega
    · -- A page that is not the last has as many indices as it may have.
      have hCount : min limit (stop - cursor) = limit := by omega
      rw [hCount] at hLast ⊢
      rcases @ih (cursor + limit) (by omega) (by omega) hRest (by omega) with ⟨later, hPages, hIds⟩
      refine ⟨_, by rw [hPages, Option.map_some], ?_⟩
      rw [List.map_append, page_ids, hIds, Nat.add_right_comm, List.range'_append_1]
      congr
      omega

/- Each id of the cut is reported on once, in that order, by as few pages as can hold them. -/
theorem pages_ids : (pages start stop limit cursor answers).map (List.map idOf) =
    some (List.range' (cursor + 1) (stop - cursor)) := by
  rcases pages_complete hStart hStop hRoom hLimit hObserved hEnough with ⟨reports, hPages, hIds⟩
  rw [hPages, Option.map_some, hIds]

end

theorem pages_ids_missing :
    (pages 0 2 1 0 [(2, fun _ => (none : Option (Record Nat))), (2, fun _ => none)]).map
      (List.map idOf) = some [1, 2] :=
  pages_ids (by decide) (by decide) (by decide) (by decide) (by simp) (by decide)

-----
-- What An Access Does

/- Between `test_and_set` and `clear`. -/
def Place.holds : Place α → Bool
  | .outside | .reserved _ | .refused | .asking => false
  | _ => true

/- A call of `record` that has neither stored nor dropped. -/
def Place.owes : Place α → Bool
  | .reserved _ | .comparing _ | .writing _ | .written _ | .refused | .stale => true
  | _ => false

/- What the holder of a flag knows of the value and of the last record stored. -/
def Place.Fits (caller : Caller) (last value : Record α) : Place α → Prop
  | .writing _ => value = last ∧ last.id < caller.id
  | .written _ => value.id = caller.id ∧ last.id < caller.id
  | .copying id => value = last ∧ id = last.id
  | .copied record => value = last ∧ record = last
  | _ => value = last

def Out.storedIn (i : Nat) : Out α → Option (Record α)
  | .stored slot record => if i = slot then some record else none
  | _ => none

section

variable {caller : Caller} {slot slot' : Slot α} {place place' : Place α} {out : Out α}

/- The holder stores what it owes, in its own slot. -/
theorem access_stored {i : Nat} {record : Record α}
    (hAccess : access caller slot place = some (slot', place', out))
    (hStored : out.storedIn i = some record) :
    i = caller.slot ∧ record.id = caller.id ∧ place.holds = true ∧ place.owes = true ∧
      place'.owes = false := by
  unfold access at hAccess
  split at hAccess <;> (try split at hAccess) <;> cases hAccess
  all_goals simp_all [Out.storedIn, Place.owes, Place.holds]
  rw [← hStored.2]

/- A call owes until it stores or drops. -/
theorem access_owes (hAccess : access caller slot place = some (slot', place', out)) :
    place'.owes = place.owes ∨ place'.owes = false ∧
      (out = .drop ∨ ∃ record, out = .stored caller.slot record ∧ record.id = caller.id) := by
  unfold access at hAccess
  split at hAccess <;> (try split at hAccess) <;> cases hAccess
  all_goals simp [Place.owes]

/- A call that finds the flag set does not touch the slot. -/
theorem access_waits (hAccess : access caller slot place = some (slot', place', out))
    (hOut : place.holds = false) (hBusy : slot.busy = true) :
    slot' = slot ∧ place'.holds = false := by
  unfold access at hAccess
  split at hAccess <;> (try split at hAccess) <;> cases hAccess
  all_goals simp_all [Place.holds]

/- A call of `read` gives what it has copied. -/
theorem access_seen {i : Nat} {record : Record α}
    (hAccess : access caller slot place = some (slot', place', .seen i (some record))) :
    i = caller.slot ∧ place = .copied record ∧ record.id ≠ 0 := by
  unfold access at hAccess
  split at hAccess <;> (try split at hAccess) <;> cases hAccess
  all_goals simp_all

/- A flag that is clear leaves the last record stored as the value. -/
theorem access_fits {last : Record α}
    (hAccess : access caller slot place = some (slot', place', out))
    (hFree : slot.busy = false → slot.value = last)
    (hHeld : place.holds = true → slot.busy = true ∧ place.Fits caller last slot.value)
    (hNew : place.owes = true → last.id ≠ caller.id) :
    (slot'.busy = false → slot'.value = (out.storedIn caller.slot).getD last) ∧
      (place'.holds = true → slot'.busy = true ∧
        place'.Fits caller ((out.storedIn caller.slot).getD last) slot'.value) ∧
      ∀ record ∈ out.storedIn caller.slot, last.id < record.id := by
  unfold access at hAccess
  split at hAccess <;> (try split at hAccess) <;> cases hAccess
  all_goals simp_all [Place.Fits, Place.holds, Place.owes, Out.storedIn]
  omega

end

-----
-- What A Slot Has Held

abbrev Trace (α : Type) := List (Entry (Ring α) (Op α) (Out α))

/- The records stored in a slot, in that order. -/
def stored (i : Nat) (trace : Trace α) : List (Record α) :=
  trace.filterMap (fun e => e.out.storedIn i)

variable {s t : Ring α} {op : Op α} {out : Out α} {i : Nat} {caller : Caller} {slot : Slot α}
variable {place : Place α} {trace : Trace α}

theorem stored_snoc {e : Entry (Ring α) (Op α) (Out α)} :
    stored i (trace ++ [e]) = stored i trace ++ (e.out.storedIn i).toList := by
  cases hOut : e.out.storedIn i <;> simp [stored, hOut]

/- An index is stored at most once, and is lost only if it is counted as dropped. -/
structure Numbered (trace : Trace α) (s : Ring α) : Prop where
  fresh : ∀ index, s.next ≤ index → s.places (.recorder index) = .outside
  readers : ∀ call slot, (s.places (.reader call slot)).owes = false
  stored : ∀ i, ∀ record ∈ stored i trace, ∃ index < s.next, record.id = index + 1 ∧
    index % capacity = i ∧ (s.places (.recorder index)).owes = false
  complete : s.dropped = 0 → ∀ index < s.next, (s.places (.recorder index)).owes = false →
    ∃ record ∈ CausalTiming.stored (index % capacity) trace, record.id = index + 1

theorem Numbered.advance (hNumbered : Numbered trace s)
    (hAccess : access caller (s.slots caller.slot) (s.places caller) = some (slot, place, out)) :
    Numbered (trace ++ [⟨s, .advance caller, out⟩])
      ⟨Function.update s.slots caller.slot slot, Function.update s.places caller place, s.next,
        s.dropped + out.drops⟩ := by
  have hOwes := access_owes hAccess
  rcases hNumbered with ⟨hFresh, hReaders, hStored, hComplete⟩
  constructor <;> try simp only [stored_snoc]
  · grind [access]
  · grind
  · intro i record hMem
    rcases List.mem_append.mp hMem with hOld | hNow
    · grind
    · rcases access_stored hAccess (Option.mem_toList.mp hNow) with ⟨rfl, hId, _, hBefore, hAfter⟩
      cases caller with
      | reader call slot => simp [hReaders] at hBefore
      | recorder index =>
        refine ⟨index, ?_, hId, rfl, by simpa using hAfter⟩
        by_contra hLe
        simp [hFresh index (by simpa using hLe), Place.owes] at hBefore
  · grind [Caller.id, Caller.slot, Out.drops, Out.storedIn]

variable [Inhabited α]

def newest (records : List (Record α)) : Record α := records.getLast?.getD ⟨0, default⟩

theorem newest_append (records : List (Record α)) (record : Option (Record α)) :
    newest (records ++ record.toList) = record.getD (newest records) := by
  cases record <;> simp [newest]

/- A slot belongs to the call that has set its flag. -/
structure Guarded (trace : Trace α) (s : Ring α) : Prop where
  alone : ∀ c d, (s.places c).holds = true → (s.places d).holds = true → c.slot = d.slot → c = d
  held : ∀ c, (s.places c).holds = true → (s.slots c.slot).busy = true ∧
    (s.places c).Fits c (newest (stored c.slot trace)) (s.slots c.slot).value
  free : ∀ i, (s.slots i).busy = false → (s.slots i).value = newest (stored i trace)
  newer : ∀ i, (stored i trace).IsChain (fun a b => a.id < b.id)

/- What a call still owes is in no slot. -/
theorem Numbered.unstored (hNumbered : Numbered trace s) (hOwes : (s.places caller).owes = true)
    (i : Nat) : (newest (CausalTiming.stored i trace)).id ≠ caller.id := by
  cases caller with
  | reader call slot => simp [hNumbered.readers] at hOwes
  | recorder index =>
    unfold newest
    cases hLast : (CausalTiming.stored i trace).getLast? with
    | none => simp [Caller.id]
    | some record =>
      rcases hNumbered.stored i record (List.mem_of_getLast? hLast) with ⟨other, _, hId, _, hNone⟩
      simp only [Option.getD_some, hId, Caller.id]
      intro hSame
      obtain rfl : other = index := by omega
      simp [hNone] at hOwes

theorem Guarded.advance {dropped : Nat} (hGuarded : Guarded trace s) (hNumbered : Numbered trace s)
    (hAccess : access caller (s.slots caller.slot) (s.places caller) = some (slot, place, out)) :
    Guarded (trace ++ [⟨s, .advance caller, out⟩])
      ⟨Function.update s.slots caller.slot slot, Function.update s.places caller place, s.next,
        dropped⟩ := by
  rcases access_fits hAccess (hGuarded.free _) (hGuarded.held caller)
    (fun hOwes => hNumbered.unstored hOwes _) with ⟨hFree, hHeld, hNewer⟩
  have hElsewhere : ∀ i, i ≠ caller.slot → out.storedIn i = none := by
    intro i hNe
    exact Option.eq_none_iff_forall_ne_some.mpr (fun _ hSome => hNe (access_stored hAccess hSome).1)
  -- Where another call holds the flag, this one waits.
  have hOther : ∀ d, d ≠ caller → (s.places d).holds = true → d.slot = caller.slot →
      slot = s.slots caller.slot ∧ place.holds = false ∧ out.storedIn caller.slot = none := by
    intro d hNe hHolds hSlot
    have hOut : (s.places caller).holds ≠ true :=
      fun hMine => hNe (hGuarded.alone d caller hHolds hMine hSlot)
    have hSame := access_waits hAccess (by simpa using hOut) (hSlot ▸ (hGuarded.held d hHolds).1)
    refine ⟨hSame.1, hSame.2, Option.eq_none_iff_forall_ne_some.mpr fun record hSome => ?_⟩
    exact hOut (access_stored hAccess hSome).2.2.1
  rcases hGuarded with ⟨hAlone, hHeldBefore, hFreeBefore, hNewerBefore⟩
  constructor <;> simp only [stored_snoc, newest_append]
  · grind
  · grind
  · grind
  · intro i
    rw [List.isChain_append]
    refine ⟨hNewerBefore i, by cases out.storedIn i <;> simp, ?_⟩
    intro last hLast record hRecord
    obtain rfl : i = caller.slot := by
      by_contra hNe
      simp [hElsewhere i hNe] at hRecord
    simpa [newest, Option.mem_def.mp hLast] using hNewer record (by simpa using hRecord)

theorem step_kept (hNumbered : Numbered trace s) (hGuarded : Guarded trace s)
    (hStep : step s op = some (t, out)) :
    Numbered (trace ++ [⟨s, op, out⟩]) t ∧ Guarded (trace ++ [⟨s, op, out⟩]) t := by
  cases op with
  | advance caller =>
    simp only [step] at hStep
    split at hStep <;> cases hStep
    rename_i hAccess
    exact ⟨hNumbered.advance hAccess, hGuarded.advance hNumbered hAccess⟩
  -- A call begins outside of every slot.
  | record evidence =>
    simp only [step, Option.ite_none_right_eq_some, Option.some.injEq, Prod.mk.injEq] at hStep
    rcases hStep with ⟨_, rfl, rfl⟩
    rcases hNumbered with ⟨hFresh, hReaders, hStored, hComplete⟩
    rcases hGuarded with ⟨hAlone, hHeld, hFree, hNewer⟩
    have hOutside := hFresh s.next (Nat.le_refl _)
    exact ⟨by constructor <;> grind [stored_snoc, Out.storedIn, Place.owes],
      by constructor <;> grind [stored_snoc, Out.storedIn, Place.holds]⟩
  | read call slot =>
    simp only [step] at hStep
    split at hStep <;> try cases hStep
    rcases hNumbered with ⟨hFresh, hReaders, hStored, hComplete⟩
    rcases hGuarded with ⟨hAlone, hHeld, hFree, hNewer⟩
    split_ifs at hStep <;> cases hStep
    all_goals
      exact ⟨by constructor <;> grind [stored_snoc, Out.storedIn, Place.owes],
        by constructor <;> grind [stored_snoc, Out.storedIn, Place.holds]⟩

def new : Ring α where
  slots := fun _ => ⟨false, 0, default⟩
  places := fun _ => .outside
  next := 0
  dropped := 0

theorem run_kept (hRun : Run step new trace s) : Numbered trace s ∧ Guarded trace s := by
  induction hRun with
  | nil =>
    exact ⟨⟨fun _ _ => rfl, fun _ _ => rfl, nofun, nofun⟩,
      ⟨nofun, nofun, fun _ _ => rfl, fun _ => .nil⟩⟩
  | snoc _ hStep ih => exact step_kept ih.1 ih.2 hStep

theorem Guarded.increasing (hGuarded : Guarded trace s) (i : Nat) :
    ((stored i trace).map Record.id).Pairwise (· < ·) := by
  rw [← List.isChain_iff_pairwise, List.isChain_map]
  exact hGuarded.newer i

/- One call at a time is in a slot, and what it leaves there is newer. -/
theorem stored_newer (hRun : Run step new trace s) :
    (∀ c d, (s.places c).holds = true → (s.places d).holds = true → c.slot = d.slot → c = d) ∧
      ∀ i, ((stored i trace).map Record.id).Pairwise (· < ·) ∧
        ((s.slots i).busy = false → (s.slots i).value = newest (stored i trace)) := by
  have hGuarded := (run_kept hRun).2
  exact ⟨hGuarded.alone, fun i => ⟨hGuarded.increasing i, hGuarded.free i⟩⟩

/- Calls of `record` that have reserved their indices. -/
def reserving (n : Nat) : Ring Nat where
  slots := new.slots
  places
    | .recorder index => if index < n then .reserved index else .outside
    | .reader _ _ => .outside
  next := n
  dropped := 0

theorem reserving_run {n : Nat} (hRoom : n < 2 ^ 64) :
    ∃ trace, Run step new trace (reserving n) ∧ ∀ i, stored i trace = [] := by
  induction n with
  | zero =>
    have hNew : reserving 0 = new := by
      unfold reserving new
      congr
      funext caller
      cases caller <;> rfl
    exact ⟨[], hNew ▸ .nil, fun _ => rfl⟩
  | succ n ih =>
    rcases ih (by omega) with ⟨trace, hRun, hStored⟩
    have hStep : step (reserving n) (.record n) = some (reserving (n + 1), .silent) := by
      simp only [step, reserving, hRoom, if_true]
      congr
      funext caller
      cases caller with
      | reader => rfl
      | recorder index => grind [Function.update]
    exact ⟨_, hRun.snoc hStep, fun i => by simp [stored_snoc, hStored, Out.storedIn]⟩

/-
  The call of index 2048 is delayed until index 4096 is stored.  A read that finds the flag
  set fails; the next one is about to return.
-/
def wrapped : List (Op Nat) :=
  List.replicate 5 (.advance (.recorder 0)) ++ List.replicate 3 (.advance (.recorder 4096)) ++
    [.read 0 0, .advance (.reader 0 0)] ++ List.replicate 2 (.advance (.recorder 4096)) ++
    List.replicate 4 (.advance (.recorder 2048)) ++ [.read 0 0] ++
    List.replicate 3 (.advance (.reader 0 0))

theorem wrapped_run : ∃ trace s t, Run step (new : Ring Nat) trace s ∧
    (stored 0 trace).map Record.id = [1, 4097] ∧ s.dropped = 1 ∧
    step s (.advance (.reader 0 0)) = some (t, .seen 0 (some ⟨4097, 4096⟩)) := by
  rcases reserving_run (n := 4097) (by decide) with ⟨front, hFront, hNone⟩
  have hExec : (exec step (reserving 4097) wrapped).isSome = true := by decide +kernel
  refine ⟨_, _, _, hFront.append (Run.of_isSome hExec), ?_, by decide +kernel, rfl⟩
  rw [stored, List.filterMap_append, ← stored, hNone]
  decide +kernel

theorem stored_newer_wrapped : ∃ trace s, Run step (new : Ring Nat) trace s ∧
    (stored 0 trace).map Record.id = [1, 4097] ∧ s.dropped = 1 ∧
    ((stored 0 trace).map Record.id).Pairwise (· < ·) := by
  rcases wrapped_run with ⟨trace, s, _, hRun, hIds, hDropped, _⟩
  exact ⟨trace, s, hRun, hIds, hDropped, ((stored_newer hRun).2 0).1⟩

/- A call of `read` gives the last record stored. -/
theorem Guarded.seen {record : Record α} (hGuarded : Guarded trace s)
    (hStep : step s op = some (t, .seen i (some record))) :
    (stored i trace).getLast? = some record := by
  cases op with
  | advance caller =>
    simp only [step] at hStep
    split at hStep <;> cases hStep
    rename_i hAccess
    rcases access_seen hAccess with ⟨rfl, hPlace, hId⟩
    have hFits := (hGuarded.held caller (by rw [hPlace]; rfl)).2
    rw [hPlace] at hFits
    cases hLast : (stored caller.slot trace).getLast? with
    | none => simp [hFits.2, newest, hLast] at hId
    | some last => simp [hFits.2, newest, hLast]
  | record | read => grind [step]

theorem seen_newest {e : Entry (Ring α) (Op α) (Out α)} {record : Record α}
    (hRun : Run step new (trace ++ [e]) s) (hSeen : e.out = .seen i (some record)) :
    (stored i trace).getLast? = some record := by
  rcases Run.concat_inv hRun with ⟨hFront, hStep⟩
  exact (run_kept hFront).2.seen (hSeen ▸ hStep)

theorem seen_newest_wrapped : ∃ trace s, Run step (new : Ring Nat) trace s ∧
    (stored 0 trace).map Record.id = [1, 4097] ∧
    (stored 0 trace).getLast? = some ⟨4097, 4096⟩ := by
  rcases wrapped_run with ⟨trace, s, _, hRun, hIds, _, hStep⟩
  exact ⟨trace, s, hRun, hIds, seen_newest (hRun.snoc hStep) rfl⟩

/-
  The ring of a whole run: ids of a slot increase in steps of the capacity, a read returns
  what one call has stored, and the pages of a cut report on each of its ids once.
-/
theorem newest_paged (hRun : Run step new trace s) :
    (∀ i, ((stored i trace).map Record.id).Pairwise (· < ·) ∧
      ∀ record ∈ stored i trace, record.id % capacity = (i + 1) % capacity) ∧
    (∀ front e tail i record, trace = front ++ e :: tail → e.out = .seen i (some record) →
      record ∈ stored i front) ∧
    ∀ start stop limit (answers : List (Nat × (Nat → Option (Record α)))), start ≤ stop →
      stop - start ≤ capacity → 1 ≤ limit ∧ limit ≤ 12 → (∀ answer ∈ answers, stop ≤ answer.1) →
      max 1 ((stop - start + (limit - 1)) / limit) ≤ answers.length →
      ∃ reports, pages start stop limit start answers = some reports ∧
        reports.map idOf = List.range' (start + 1) (stop - start) := by
  rcases run_kept hRun with ⟨hNumbered, hGuarded⟩
  refine ⟨fun i => ⟨hGuarded.increasing i, fun record hMem => ?_⟩, ?_, ?_⟩
  · rcases hNumbered.stored i record hMem with ⟨index, _, hId, hMod, _⟩
    rw [hId, ← hMod, Nat.mod_add_mod]
  · rintro front e tail i record rfl hSeen
    rcases hRun.split with ⟨mid, hFront, hTail⟩
    rcases Run.cons_inv hTail with ⟨rfl, next, hStep, _⟩
    exact List.mem_of_getLast? ((run_kept hFront).2.seen (hSeen ▸ hStep))
  · intro start stop limit answers hStop hRoom hLimit hObserved hEnough
    rw [Nat.max_le, Nat.div_le_iff_le_mul_add_pred hLimit.1] at hEnough
    have hPage : limit ≤ limit * answers.length := Nat.le_mul_of_pos_right limit hEnough.1
    exact pages_complete (Nat.le_refl _) hStop hRoom hLimit hObserved (by omega)

theorem newest_paged_wrapped : ∃ trace s, Run step (new : Ring Nat) trace s ∧
    (stored 0 trace).map Record.id = [1, 4097] ∧
    (∀ record ∈ stored 0 trace, record.id % capacity = 1) ∧ ⟨4097, 4096⟩ ∈ stored 0 trace ∧
    ∃ reports, pages 0 2 1 0 [(2, fun _ => some ⟨1, 7⟩), (2, fun _ => none)] = some reports ∧
      reports.map idOf = [1, 2] := by
  rcases wrapped_run with ⟨trace, s, _, hRun, hIds, _, hStep⟩
  rcases newest_paged hRun with ⟨hSlots, _, hPages⟩
  have hSeen := (newest_paged (hRun.snoc hStep)).2.1
  exact ⟨trace, s, hRun, hIds, (hSlots 0).2, hSeen trace _ [] 0 _ rfl rfl,
    hPages 0 2 1 _ (by decide) (by decide) (by decide) (by simp) (by decide)⟩

end Sledge.Native.CausalTiming
