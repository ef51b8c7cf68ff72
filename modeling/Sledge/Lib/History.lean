import Sledge.Lib.Transition

/-
  Past-time properties of a recorded history.

  `Since` reads a list from its end: a marked entry, an
  earlier history of a given kind before it, and only quiet
  entries after it.  Chains of dependent events are nested
  uses of it.

  `Extends` is for what any two entries of a log must satisfy,
  when the state remembers enough of the earlier one to check
  the later one.

  Main rules:
    * `since_snoc`
    * `Since.of_index`
    * `Since.now`
    * `Since.keep`
    * `Since.mark_after`
    * `Extends.trans`
    * `Run.extends`
-/

-----
-- Since

namespace Transition

variable {E : Type}

/-
  The latest marked entry had `before` ahead of it, and every entry after it was quiet.
-/
def Since (before : List E → Prop) (mark quiet : E → Prop) (history : List E) : Prop :=
  ∃ front entry rest, history = front ++ entry :: rest ∧
      before front ∧ mark entry ∧ ∀ e ∈ rest, quiet e

variable {before : List E → Prop} {mark quiet : E → Prop} {history : List E} {entry : E}

theorem not_since_nil : ¬ Since before mark quiet [] := by
  rintro ⟨front, marked, rest, hSplit, _⟩
  simp at hSplit

/- How one more entry can establish the property. -/
theorem since_snoc : Since before mark quiet (history ++ [entry]) ↔ (before history ∧ mark entry) ∨
        (Since before mark quiet history ∧ quiet entry) := by
  constructor
  · rintro ⟨front, marked, rest, hSplit, hBefore, hMark, hRest⟩
    induction rest using List.reverseRecOn with
    | nil =>
      rcases List.append_inj' hSplit rfl with ⟨rfl, hLast⟩
      obtain rfl := List.singleton_inj.mp hLast
      exact .inl ⟨hBefore, hMark⟩
    | append_singleton middle last _ =>
      rw [← List.cons_append, ← List.append_assoc] at hSplit
      rcases List.append_inj' hSplit rfl with ⟨rfl, hLast⟩
      obtain rfl := List.singleton_inj.mp hLast
      rw [List.forall_mem_append, List.forall_mem_singleton] at hRest
      exact .inr ⟨⟨front, marked, middle, rfl, hBefore, hMark, hRest.1⟩, hRest.2⟩
  · rintro (⟨hBefore, hMark⟩ | ⟨⟨front, marked, rest, rfl, hBefore, hMark, hRest⟩, hQuiet⟩)
    · exact ⟨history, entry, [], rfl, hBefore, hMark, by simp⟩
    · refine
        ⟨front, marked, rest ++ [entry], by simp, hBefore,
          hMark, ?_⟩
      rw [List.forall_mem_append, List.forall_mem_singleton]
      exact ⟨hRest, hQuiet⟩

namespace Since

/- A marked entry at an index, and quiet ones after it. -/
theorem of_index {l : Nat} (hEntry : history[l]? = some entry) (hBefore : before (history.take l))
    (hMark : mark entry) (hQuiet : ∀ e ∈ history.drop (l + 1), quiet e) :
    Since before mark quiet history := by
  rcases List.getElem?_eq_some_iff.mp hEntry with ⟨hBound, rfl⟩
  refine ⟨_, _, _, ?_, hBefore, hMark, hQuiet⟩
  rw [← List.drop_eq_getElem_cons hBound, List.take_append_drop]

/- The property starts to hold at a marked entry. -/
theorem now (hBefore : before history) (hMark : mark entry) :
    Since before mark quiet (history ++ [entry]) :=
  since_snoc.mpr (.inl ⟨hBefore, hMark⟩)

/- The property survives a quiet entry. -/
theorem keep (hSince : Since before mark quiet history) (hQuiet : quiet entry) :
    Since before mark quiet (history ++ [entry]) :=
  since_snoc.mpr (.inr ⟨hSince, hQuiet⟩)

/- After an entry that is not quiet there is a newer mark. -/
theorem mark_after {front rest : List E} (hSince : Since before mark quiet (front ++ entry :: rest))
    (hLoud : ¬ quiet entry) (hPlain : ¬ mark entry) : ∃ e ∈ rest, mark e := by
  induction rest using List.reverseRecOn with
  | nil =>
    rcases since_snoc.mp hSince with ⟨_, hMark⟩ | ⟨_, hQuiet⟩
    · exact absurd hMark hPlain
    · exact absurd hQuiet hLoud
  | append_singleton rest last ih =>
    rw [← List.cons_append, ← List.append_assoc] at hSince
    rcases since_snoc.mp hSince with ⟨_, hMark⟩ | ⟨hEarlier, _⟩
    · exact ⟨last, by simp, hMark⟩
    · rcases ih hEarlier with ⟨e, hMem, hMark⟩
      exact ⟨e, List.mem_append_left _ hMem, hMark⟩

/- An entry that is not outstanding was answered after it last occurred. -/
theorem of_answered {a b : E} (hMem : a ∈ history)
    (hNot : ¬ Since (fun _ => True) (· = a) (· ≠ b) history) :
    Since (fun _ => True) (· = b) (· ≠ a) history := by
  induction history using List.reverseRecOn with
  | nil => cases hMem
  | append_singleton history last ih =>
    rw [since_snoc, not_or] at hNot
    by_cases hAnswer : last = b
    · exact now trivial hAnswer
    · have hOther : last ≠ a := fun hSame => hNot.1 ⟨trivial, hSame⟩
      rcases List.mem_append.mp hMem with hEarlier | hLast
      · exact keep (ih hEarlier (fun hSince => hNot.2 ⟨hSince, hAnswer⟩)) hOther
      · exact absurd (List.mem_singleton.mp hLast).symm hOther

end Since

-----
-- Logs A State Remembers

variable {S E : Type}

/-
  A move from `a` to `b` that writes `log`: what was known stays known, what is written
  becomes known, and it follows everything known before.
-/
structure Extends (Known : S → E → Prop) (Follows : E → E → Prop) (a b : S) (log : List E) :
    Prop where
  keeps : ∀ e, Known a e → Known b e
  knows : ∀ e ∈ log, Known b e
  follows : ∀ d, Known a d → ∀ e ∈ log, Follows d e
  pairwise : log.Pairwise Follows

namespace Extends

variable {Known : S → E → Prop} {Follows : E → E → Prop} {a b c : S} {first second : List E}

/- A move that writes nothing and forgets nothing. -/
theorem silent (hKeeps : ∀ e, Known a e → Known b e) : Extends Known Follows a b [] where
  keeps := hKeeps
  knows := by simp
  follows := by simp
  pairwise := List.Pairwise.nil

/- A move that writes one entry. -/
theorem single {e : E} (hKeeps : ∀ d, Known a d → Known b d) (hKnows : Known b e)
    (hFollows : ∀ d, Known a d → Follows d e) : Extends Known Follows a b [e] where
  keeps := hKeeps
  knows := by simpa using hKnows
  follows := by simpa using hFollows
  pairwise := List.pairwise_singleton Follows e

/- Moves compose, and their logs with them. -/
theorem trans (hFirst : Extends Known Follows a b first)
    (hSecond : Extends Known Follows b c second) : Extends Known Follows a c (first ++ second) where
  keeps := fun e hKnown =>
    hSecond.keeps e (hFirst.keeps e hKnown)
  knows := by
    rw [List.forall_mem_append]
    exact ⟨fun e hMem => hSecond.keeps e (hFirst.knows e hMem), hSecond.knows⟩
  follows := by
    intro d hKnown
    rw [List.forall_mem_append]
    exact ⟨hFirst.follows d hKnown, hSecond.follows d (hFirst.keeps d hKnown)⟩
  pairwise := by
    rw [List.pairwise_append]
    exact ⟨hFirst.pairwise, hSecond.pairwise, fun d hMem => hSecond.follows d (hFirst.knows d hMem)⟩

/- Everything known at the start is part of the history. -/
theorem cons_pairwise {e : E} (hLog : Extends Known Follows a b first) (hKnown : Known a e) :
    (e :: first).Pairwise Follows :=
  List.pairwise_cons.mpr ⟨hLog.follows e hKnown, hLog.pairwise⟩

end Extends

/- A run extends the log by what its steps write. -/
theorem Run.extends {T O R : Type} {step : T → O → Option (T × R)} {Known : S → E → Prop}
    {Follows : E → E → Prop} (view : T → S) (log : Entry T O R → List E) {s t : T}
    {trace : List (Entry T O R)}
    (hStep : ∀ a op b out, step a op = some (b, out) → Extends Known Follows (view a) (view b)
          (log ⟨a, op, out⟩)) (hRun : Run step s trace t) :
    Extends Known Follows (view s) (view t) (trace.flatMap log) := by
  induction hRun with
  | nil => exact .silent (fun _ hKnown => hKnown)
  | snoc _ hLast ih =>
    rw [List.flatMap_append, List.flatMap_singleton]
    exact ih.trans (hStep _ _ _ _ hLast)

end Transition
