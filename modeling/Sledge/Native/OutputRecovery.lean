import Mathlib.Data.Finset.Card
import Sledge.Lib.History

/-
  The evidence an output recovery needs
  (`native/hyprland/output_recovery.hpp`).

  The addresses of the affected resources stand in a fixed
  array with holes, where one address may stand twice.  What
  the three flags and the array say of the calls so far is
  kept by every call, so an eligible state gives the history
  of calls that led to it.

  Main results:
    * `OutputRecovery.Records.call`
    * `OutputRecovery.eligible_history`
-/

-----
-- The Recovery State

namespace Sledge.Native

open Transition

/- The state; an address is an `α`, and `none` the null pointer. -/
structure OutputRecovery (α : Type) where
  affected : List (Option α)
  uncertain : Bool
  overflow : Bool
  freshBinding : Bool
  size : affected.length = 16

namespace OutputRecovery

variable {α : Type}

def new : OutputRecovery α := ⟨List.replicate 16 none, false, false, false, rfl⟩

def begin (s : OutputRecovery α) : OutputRecovery α :=
  { s with uncertain := true, freshBinding := false }

def routesRetired (s : OutputRecovery α) : Bool :=
  s.uncertain && !s.overflow && s.affected.all Option.isNone

def entered (s : OutputRecovery α) : OutputRecovery α :=
  if s.routesRetired then { s with freshBinding := true } else s

def eligible (s : OutputRecovery α) (physicalEmpty qualified unlocked : Bool) : Bool :=
  s.routesRetired && s.freshBinding && physicalEmpty && qualified && unlocked

def completed (s : OutputRecovery α) : OutputRecovery α :=
  { s with uncertain := false, freshBinding := false }

variable [DecidableEq α]

/- The scan stops at the resource or at the first hole, whichever is first. -/
def place (resource : α) : List (Option α) → Option (List (Option α))
  | [] => none
  | entry :: rest =>
    if entry = some resource then some (entry :: rest)
    else if entry = none then some (some resource :: rest)
    else (place resource rest).map (entry :: ·)

theorem place_spec {resource : α} {entries entries' : List (Option α)}
    (hPlace : place resource entries = some entries') :
    entries'.length = entries.length ∧
      ∀ r, some r ∈ entries' ↔ r = resource ∨ some r ∈ entries := by
  induction entries generalizing entries' with
  | nil => cases hPlace
  | cons entry rest ih =>
    rw [place] at hPlace
    split_ifs at hPlace with hHere hHole
    · cases hPlace
      refine ⟨rfl, fun r => ?_⟩
      grind
    · cases hPlace
      refine ⟨rfl, fun r => ?_⟩
      grind
    · rcases Option.map_eq_some_iff.mp hPlace with ⟨placed, hRest, rfl⟩
      rcases ih hRest with ⟨hLength, hMem⟩
      refine ⟨by simp [hLength], fun r => ?_⟩
      simp only [List.mem_cons, hMem]
      tauto

/- `include` of the source. -/
def included (s : OutputRecovery α) : Option α → OutputRecovery α
  | none => { s with overflow := true }
  | some resource =>
    match hPlace : place resource s.affected with
    | none => { s with overflow := true }
    | some entries =>
      { s with affected := entries, size := (place_spec hPlace).1.trans s.size }

/- An inclusion that finds room touches the array alone. -/
theorem included_spec (s : OutputRecovery α) (resource : Option α) :
    (s.included resource).uncertain = s.uncertain ∧
      (s.included resource).freshBinding = s.freshBinding ∧
      ((s.included resource).overflow = false → s.overflow = false ∧ resource ≠ none ∧
        ∀ r, some r ∈ (s.included resource).affected ↔ some r = resource ∨ some r ∈ s.affected) := by
  unfold included
  split
  · simp
  · split
    · simp
    · rename_i entries hPlace
      refine ⟨rfl, rfl, fun hClean => ⟨hClean, by simp, fun r => ?_⟩⟩
      rw [(place_spec hPlace).2 r, Option.some.injEq]

def retired (s : OutputRecovery α) (resource : Option α) : OutputRecovery α :=
  { s with
    affected := s.affected.map (fun entry => if entry = resource then none else entry)
    freshBinding := false
    size := by rw [List.length_map, s.size] }

-----
-- Calls And Their History

inductive Call (α : Type) where
  | begin
  | included (resource : Option α)
  | retired (resource : Option α)
  | entered
  | completed
deriving DecidableEq

def call (s : OutputRecovery α) : Call α → OutputRecovery α
  | .begin => s.begin
  | .included resource => s.included resource
  | .retired resource => s.retired resource
  | .entered => s.entered
  | .completed => s.completed

def after (calls : List (Call α)) : OutputRecovery α := calls.foldl call new

/- An included resource that was not retired since. -/
def Outstanding (calls : List (Call α)) (r : α) : Prop :=
  Since (fun _ => True) (· = .included (some r)) (· ≠ .retired (some r)) calls

/- Calls that end a fresh binding. -/
def Call.unbinds : Call α → Bool
  | .begin | .retired _ | .completed => true
  | _ => false

/- A binding was entered while nothing was outstanding, and holds since. -/
def FreshlyBound (calls : List (Call α)) : Prop :=
  Since (fun front => ∀ r, ¬ Outstanding front r) (· = .entered) (fun c => c.unbinds = false) calls

/- What the calls so far have kept to while nothing overflowed. -/
structure Accounted (calls : List (Call α)) (s : OutputRecovery α) : Prop where
  named : Call.included none ∉ calls
  capacity : ∀ front rest, calls = front ++ rest →
    ∀ held : Finset α, (∀ r ∈ held, Outstanding front r) → held.card ≤ 16
  affected : ∀ r, some r ∈ s.affected ↔ Outstanding calls r

/- What the flags say of the calls that led to a state. -/
structure Records (calls : List (Call α)) (s : OutputRecovery α) : Prop where
  uncertain : s.uncertain = true → Since (fun _ => True) (· = .begin) (· ≠ .completed) calls
  accounted : s.overflow = false → Accounted calls s
  fresh : s.freshBinding = true → FreshlyBound calls

variable {calls : List (Call α)} {s : OutputRecovery α} {c : Call α}

/- The array has room for sixteen resources. -/
theorem card_le_of_affected {held : Finset α} (hHeld : ∀ r ∈ held, some r ∈ s.affected) :
    held.card ≤ 16 := by
  have hSubset : held.map ⟨some, Option.some_injective α⟩ ⊆ s.affected.toFinset := by
    intro entry hEntry
    rcases Finset.mem_map.mp hEntry with ⟨r, hMem, rfl⟩
    exact List.mem_toFinset.mpr (hHeld r hMem)
  calc held.card = (held.map ⟨some, Option.some_injective α⟩).card := (Finset.card_map _).symm
    _ ≤ s.affected.toFinset.card := Finset.card_le_card hSubset
    _ ≤ s.affected.length := s.affected.toFinset_card_le
    _ = 16 := s.size

/- A prefix of a longer history is a prefix of the shorter one, or all of it. -/
theorem Accounted.snoc {s' : OutputRecovery α} (hBefore : Accounted calls s)
    (hNamed : c ≠ .included none) (hAffected : ∀ r, some r ∈ s'.affected ↔ Outstanding (calls ++ [c]) r) :
    Accounted (calls ++ [c]) s' where
  named := by
    rw [List.mem_append, List.mem_singleton]
    rintro (hMem | rfl)
    · exact hBefore.named hMem
    · exact hNamed rfl
  capacity := by
    intro front rest hSplit held hHeld
    rcases List.eq_nil_or_concat rest with rfl | ⟨rest, last, rfl⟩
    · rw [List.append_nil] at hSplit
      exact card_le_of_affected (fun r hMem => (hAffected r).mpr (hSplit ▸ hHeld r hMem))
    · rw [List.concat_eq_append, ← List.append_assoc] at hSplit
      exact hBefore.capacity front rest (List.append_inj' hSplit rfl).1 held hHeld
  affected := hAffected

omit [DecidableEq α] in
theorem outstanding_snoc (r : α) : Outstanding (calls ++ [c]) r ↔
    c = .included (some r) ∨ (Outstanding calls r ∧ c ≠ .retired (some r)) := by
  rw [Outstanding, since_snoc, true_and, Outstanding]

/- A call that leaves the array alone and includes nothing. -/
theorem Accounted.keep {s' : OutputRecovery α} (hBefore : Accounted calls s)
    (hSame : s'.affected = s.affected) (hOther : ∀ r, c ≠ .included r ∧ c ≠ .retired r) :
    Accounted (calls ++ [c]) s' := by
  refine hBefore.snoc (hOther none).1 (fun r => ?_)
  rw [hSame, hBefore.affected, outstanding_snoc]
  have := hOther (some r)
  tauto

theorem accounted_call (hRecords : Records calls s) (hClean : (s.call c).overflow = false) :
    Accounted (calls ++ [c]) (s.call c) := by
  cases c with
  | begin | completed => exact (hRecords.accounted hClean).keep rfl (by simp)
  | entered =>
    rw [call, entered] at hClean ⊢
    split at hClean <;> exact (hRecords.accounted hClean).keep (by split <;> rfl) (by simp)
  | retired resource =>
    have hBefore := hRecords.accounted hClean
    refine hBefore.snoc (by simp) (fun r => ?_)
    rw [outstanding_snoc, ← hBefore.affected]
    simp only [call, retired, List.mem_map, reduceCtorEq, false_or, ne_eq, Call.retired.injEq]
    constructor
    · rintro ⟨entry, hMem, hEntry⟩
      split_ifs at hEntry with hSame
      exact hEntry ▸ ⟨hMem, Ne.symm hSame⟩
    · rintro ⟨hMem, hOther⟩
      exact ⟨some r, hMem, if_neg (Ne.symm hOther)⟩
  | included resource =>
    rcases (s.included_spec resource).2.2 hClean with ⟨hEarlier, hNamed, hAffected⟩
    have hBefore := hRecords.accounted hEarlier
    refine hBefore.snoc (by simpa using hNamed) (fun r => ?_)
    rw [outstanding_snoc, ← hBefore.affected, call, hAffected]
    simp [eq_comm]

omit [DecidableEq α] in
/- Entering counts only once every affected route is retired. -/
theorem entered_fresh (hRecords : Records calls s) (hFresh : s.entered.freshBinding = true) :
    FreshlyBound (calls ++ [.entered]) := by
  rw [entered] at hFresh
  split_ifs at hFresh with hRetired
  · refine .now (fun r hOutstanding => ?_) rfl
    simp only [routesRetired, Bool.and_eq_true, Bool.not_eq_true', List.all_eq_true] at hRetired
    have hMem := ((hRecords.accounted hRetired.1.2).affected r).mpr hOutstanding
    simpa using hRetired.2 _ hMem
  · exact (hRecords.fresh hFresh).keep rfl

/- Every call keeps the record. -/
theorem Records.call (hRecords : Records calls s) (c : Call α) :
    Records (calls ++ [c]) (s.call c) where
  accounted := accounted_call hRecords
  uncertain := by
    intro hUncertain
    cases c with
    | begin => exact .now trivial rfl
    | completed => cases hUncertain
    | included resource =>
      exact (hRecords.uncertain ((s.included_spec resource).1 ▸ hUncertain)).keep (by simp)
    | retired resource => exact (hRecords.uncertain hUncertain).keep (by simp)
    | entered =>
      refine (hRecords.uncertain ?_).keep (by simp)
      rw [OutputRecovery.call, entered] at hUncertain
      split at hUncertain <;> exact hUncertain
  fresh := by
    intro hFresh
    cases c with
    | begin | completed | retired resource => cases hFresh
    | included resource =>
      exact (hRecords.fresh ((s.included_spec resource).2.1 ▸ hFresh)).keep rfl
    | entered => exact entered_fresh hRecords hFresh

theorem records_after (calls : List (Call α)) : Records calls (after calls) := by
  induction calls using List.reverseRecOn with
  | nil =>
    refine ⟨by simp [after, new], fun _ => ⟨by simp, ?_, ?_⟩, by simp [after, new]⟩
    · intro front rest hSplit held hHeld
      rw [(List.append_eq_nil_iff.mp hSplit.symm).1] at hHeld
      rw [Finset.eq_empty_of_forall_notMem (fun r hMem => not_since_nil (hHeld r hMem))]
      exact Nat.zero_le 16
    · intro r
      simp [after, new, Outstanding, not_since_nil]
  | append_singleton calls c ih =>
    rw [after, List.foldl_append]
    exact ih.call c

/-
  Recovery is granted only after exact retirement: the calls that led to an eligible state
  began a recovery, kept to named resources and the capacity, retired each resource after
  its latest inclusion, and entered a binding after all of that.
-/
theorem eligible_history (calls : List (Call α))
    (hEligible : (after calls).eligible true true true = true) :
    Since (fun _ => True) (· = .begin) (· ≠ .completed) calls ∧
    (Call.included none ∉ calls ∧ ∀ front rest, calls = front ++ rest →
      ∀ held : Finset α, (∀ r ∈ held, Outstanding front r) → held.card ≤ 16) ∧
    (∀ r, Call.included (some r) ∈ calls →
      Since (fun _ => True) (· = .retired (some r)) (· ≠ .included (some r)) calls) ∧
    Since (fun front => ∀ r, ¬ Outstanding front r) (· = .entered)
      (fun c => c.unbinds = false) calls := by
  have hRecords := records_after calls
  simp only [eligible, routesRetired, Bool.and_true, Bool.and_eq_true, Bool.not_eq_true',
    List.all_eq_true] at hEligible
  rcases hEligible with ⟨⟨⟨hUncertain, hClean⟩, hRetired⟩, hFresh⟩
  have hAccounted := hRecords.accounted hClean
  refine ⟨hRecords.uncertain hUncertain, ⟨hAccounted.named, hAccounted.capacity⟩, ?_,
    hRecords.fresh hFresh⟩
  intro r hIncluded
  refine .of_answered hIncluded (fun hOutstanding => ?_)
  simpa using hRetired _ ((hAccounted.affected r).mpr hOutstanding)

/- A resource is included, retired, and a binding entered. -/
def recovered : List (Call Nat) := [.begin, .included (some 7), .retired (some 7), .entered]

theorem eligible_history_recovered : (after recovered).eligible true true true = true ∧
    Since (fun _ => True) (· = .retired (some 7)) (· ≠ .included (some 7)) recovered :=
  ⟨by decide, (eligible_history recovered (by decide)).2.2.1 7 (by decide)⟩

end OutputRecovery

end Sledge.Native
