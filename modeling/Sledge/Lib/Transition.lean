import Mathlib.Data.List.Induction

/-
  Runs of a deterministic step function that may abort.

  A run is recorded as a list of entries, one for each
  operation, with the state it started from and the value it
  returned.  History properties are then statements about
  the entries of a list.

  Main rules:
    * `Run.invariant`
    * `Run.invariant_of`
    * `Run.append`
    * `Run.split`
    * `Run.upto`
    * `Run.around`
    * `Run.of_isSome`
    * `Run.project`
-/

-----
-- Runs

namespace Transition

variable {S O R : Type}

/- One executed operation. -/
structure Entry (S O R : Type) where
  pre : S
  op : O
  out : R

/- The runs of `step` from `start`, with their entries. -/
inductive Run (step : S → O → Option (S × R)) (start : S) : List (Entry S O R) → S → Prop
  | nil : Run step start [] start
  | snoc {trace : List (Entry S O R)} {last next : S} {op : O} {out : R} :
      Run step start trace last →
      step last op = some (next, out) →
      Run step start (trace ++ [⟨last, op, out⟩]) next

/- Run a list of operations; `none` when one aborts. -/
def exec (step : S → O → Option (S × R)) : S → List O → Option (List (Entry S O R) × S)
| s, [] => some ([], s)
| s, op :: ops =>
  match step s op with
  | none => none
  | some (next, out) =>
    match exec step next ops with
    | none => none
    | some (trace, last) =>
      some (⟨s, op, out⟩ :: trace, last)

/- The entries of an execution that does not abort. -/
def entriesOf (step : S → O → Option (S × R)) (s : S) (ops : List O) : List (Entry S O R) :=
  ((exec step s ops).map Prod.fst).getD []

/- The last state of an execution that does not abort. -/
def lastOf (step : S → O → Option (S × R)) (s : S) (ops : List O) : S :=
  ((exec step s ops).map Prod.snd).getD s

/- What holds of all entries up to the last, and of it. -/
theorem forall_mem_snoc {Q : Entry S O R → Prop} {front : List (Entry S O R)} {entry : Entry S O R} :
    (∀ e ∈ front ++ [entry], Q e) ↔ (∀ e ∈ front, Q e) ∧ Q entry := by
  rw [List.forall_mem_append, List.forall_mem_singleton]

namespace Run

variable {step : S → O → Option (S × R)} {s t u : S} {trace tail : List (Entry S O R)}

/- A property kept by admitted steps holds after their runs. -/
theorem invariant_of {P : S → Prop} {Q : Entry S O R → Prop} (hStart : P s)
    (hStep : ∀ a op b out, P a → Q ⟨a, op, out⟩ → step a op = some (b, out) → P b)
    (hRun : Run step s trace t) (hAdmits : ∀ e ∈ trace, Q e) : P t := by
  induction hRun with
  | nil => exact hStart
  | snoc _ hLast ih =>
    rcases forall_mem_snoc.mp hAdmits with ⟨hFront, hEntry⟩
    exact hStep _ _ _ _ (ih hFront) hEntry hLast

/- A property kept by every step holds after every run. -/
theorem invariant {P : S → Prop} (hStart : P s)
    (hStep : ∀ a op b out, P a → step a op = some (b, out) → P b) (hRun : Run step s trace t) :
    P t :=
  invariant_of (Q := fun _ => True) hStart (fun a op b out hBefore _ => hStep a op b out hBefore)
    hRun (fun _ _ => trivial)

theorem append (hFirst : Run step s trace t) (hSecond : Run step t tail u) :
    Run step s (trace ++ tail) u := by
  induction hSecond with
  | nil => simpa using hFirst
  | snoc _ hLast ih =>
    rw [← List.append_assoc]
    exact .snoc ih hLast

theorem single {op : O} {out : R} (hStep : step s op = some (t, out)) :
    Run step s [⟨s, op, out⟩] t :=
  Run.snoc Run.nil hStep

theorem nil_iff : Run step s [] t ↔ t = s := by
  constructor
  · intro hRun
    generalize hTrace : ([] : List (Entry S O R)) = trace at hRun
    cases hRun with
    | nil => rfl
    | snoc _ _ => simp at hTrace
  · rintro rfl
    exact .nil

variable {entry : Entry S O R}

/- The last entry of a nonempty run is its last step. -/
theorem concat_inv (hRun : Run step s (trace ++ [entry]) t) :
    Run step s trace entry.pre ∧ step entry.pre entry.op = some (t, entry.out) := by
  generalize hTrace : trace ++ [entry] = whole at hRun
  cases hRun with
  | nil => simp at hTrace
  | snoc hFront hLast =>
    rcases List.append_inj' hTrace rfl with ⟨rfl, hEntry⟩
    obtain rfl := List.singleton_inj.mp hEntry
    exact ⟨hFront, hLast⟩

/- A run over an appended trace splits at the seam. -/
theorem split (hRun : Run step s (trace ++ tail) t) :
    ∃ mid, Run step s trace mid ∧ Run step mid tail t := by
  induction tail using List.reverseRecOn generalizing t with
  | nil =>
    rw [List.append_nil] at hRun
    exact ⟨t, hRun, .nil⟩
  | append_singleton front entry ih =>
    rw [← List.append_assoc] at hRun
    rcases concat_inv hRun with ⟨hFront, hLast⟩
    rcases ih hFront with ⟨mid, hMid, hTail⟩
    exact ⟨mid, hMid, .snoc hTail hLast⟩

/- A run is a run up to any of its entries. -/
theorem upto {front : List (Entry S O R)} (hRun : Run step s (front ++ entry :: tail) t) :
    ∃ mid, Run step s (front ++ [entry]) mid := by
  rw [List.append_cons] at hRun
  rcases split hRun with ⟨mid, hFront, _⟩
  exact ⟨mid, hFront⟩

/- The first entry of a nonempty run is its first step. -/
theorem cons_inv (hRun : Run step s (entry :: tail) t) :
    entry.pre = s ∧ ∃ mid, step s entry.op = some (mid, entry.out) ∧ Run step mid tail t := by
  have hSplit : Run step s ([entry] ++ tail) t := hRun
  rcases split hSplit with ⟨mid, hHead, hTail⟩
  have hSingle : Run step s ([] ++ [entry]) mid := hHead
  rcases concat_inv hSingle with ⟨hNil, hStep⟩
  have hPre : entry.pre = s := nil_iff.mp hNil
  rw [hPre] at hStep
  exact ⟨hPre, mid, hStep, hTail⟩

/- A run around one of its entries. -/
theorem around {log : List (Entry S O R)} {l : Nat} (hRun : Run step s log t)
    (hEntry : log[l]? = some entry) :
    ∃ front rest next, log = front ++ entry :: rest ∧ front.length = l ∧
        Run step s front entry.pre ∧
        step entry.pre entry.op = some (next, entry.out) ∧
        Run step next rest t := by
  rcases List.getElem?_eq_some_iff.mp hEntry with ⟨hBound, rfl⟩
  have hSplit : log = log.take l ++ log[l] :: log.drop (l + 1) := by
    rw [← List.drop_eq_getElem_cons hBound, List.take_append_drop]
  rw [hSplit] at hRun
  rcases split hRun with ⟨mid, hFront, hTail⟩
  rcases cons_inv hTail with ⟨hPre, next, hStep, hRest⟩
  rw [← hPre] at hFront hStep
  refine ⟨_, _, next, hSplit, ?_, hFront, hStep, hRest⟩
  rw [List.length_take]
  omega

theorem cons {op : O} {out : R} (hStep : step s op = some (t, out)) (hTail : Run step t tail u) :
    Run step s (⟨s, op, out⟩ :: tail) u :=
  append (single hStep) hTail

/- An execution is its first step and an execution from there. -/
theorem exec_cons {op : O} {ops : List O} (hExec : exec step s (op :: ops) = some (trace, t)) :
    ∃ next out rest, step s op = some (next, out) ∧ exec step next ops = some (rest, t) ∧
      trace = ⟨s, op, out⟩ :: rest := by
  unfold exec at hExec
  split at hExec
  · cases hExec
  · rename_i hStep
    split at hExec
    · cases hExec
    · rename_i hRest
      cases hExec
      exact ⟨_, _, _, hStep, hRest, rfl⟩

/- Executing a list of operations yields a run. -/
theorem of_exec {ops : List O} (hExec : exec step s ops = some (trace, t)) :
    Run step s trace t := by
  induction ops generalizing s trace with
  | nil =>
    cases hExec
    exact .nil
  | cons op ops ih =>
    rcases exec_cons hExec with ⟨next, out, rest, hStep, hRest, rfl⟩
    exact cons hStep (ih hRest)

/- An execution that does not abort is a run. -/
theorem of_isSome {ops : List O} (hExec : (exec step s ops).isSome = true) :
    Run step s (entriesOf step s ops) (lastOf step s ops) := by
  rcases Option.isSome_iff_exists.mp hExec with ⟨⟨trace, t⟩, hSome⟩
  simp only [entriesOf, lastOf, hSome, Option.map_some, Option.getD_some]
  exact of_exec hSome

end Run

/- An execution performs the operations it was given. -/
theorem op_mem_of_exec {step : S → O → Option (S × R)} {s t : S} {ops : List O}
    {trace : List (Entry S O R)} (hExec : exec step s ops = some (trace, t)) {e : Entry S O R}
    (hMem : e ∈ trace) : e.op ∈ ops := by
  induction ops generalizing s trace with
  | nil =>
    cases hExec
    cases hMem
  | cons op ops ih =>
    rcases Run.exec_cons hExec with ⟨next, out, rest, _, hRest, rfl⟩
    rcases List.mem_cons.mp hMem with rfl | hTail
    · exact List.mem_cons_self
    · exact List.mem_cons_of_mem _ (ih hRest hTail)

theorem op_mem_of_entriesOf {step : S → O → Option (S × R)} {s : S} {ops : List O} {e : Entry S O R}
    (hMem : e ∈ entriesOf step s ops) : e.op ∈ ops := by
  cases hExec : exec step s ops with
  | none => simp [entriesOf, hExec] at hMem
  | some reached =>
    simp only [entriesOf, hExec, Option.map_some, Option.getD_some] at hMem
    exact op_mem_of_exec hExec hMem

/- Steps that agree wherever an invariant holds execute alike. -/
theorem exec_congr {step step' : S → O → Option (S × R)} {P : S → Prop} {s : S} (hStart : P s)
    (hSame : ∀ a op, P a → step' a op = step a op)
    (hStep : ∀ a op b out, P a → step a op = some (b, out) → P b) (ops : List O) :
    exec step' s ops = exec step s ops := by
  induction ops generalizing s with
  | nil => rfl
  | cons op ops ih =>
    rw [exec, exec, hSame s op hStart]
    cases hNext : step s op with
    | none => rfl
    | some reached => simp only [ih (hStep s op reached.1 reached.2 hStart hNext)]

/- An invariant of the steps holds where an execution ends. -/
theorem lastOf_invariant {step : S → O → Option (S × R)} {P : S → Prop} {s : S} (hStart : P s)
    (hStep : ∀ a op b out, P a → step a op = some (b, out) → P b) (ops : List O) :
    P (lastOf step s ops) := by
  cases hExec : exec step s ops with
  | none => simpa [lastOf, hExec] using hStart
  | some reached =>
    simp only [lastOf, hExec, Option.map_some, Option.getD_some]
    exact (Run.of_exec hExec).invariant hStart hStep

-----
-- Projection Of A Run

/-
  A view under which kept operations take the same steps and hidden operations take none.
  `admits` is what is assumed of each entry of the run.
-/
structure Projection (step : S → O → Option (S × R)) (admits : Entry S O R → Prop) where
  keeps : O → Bool
  view : S → S
  mapOp : O → O
  mapOut : R → R
  valid : S → Prop
  valid_step : ∀ a op b out, valid a → admits ⟨a, op, out⟩ → step a op = some (b, out) → valid b
  kept_step : ∀ a op b out, valid a → admits ⟨a, op, out⟩ →
      step a op = some (b, out) → keeps op = true →
      step (view a) (mapOp op) = some (view b, mapOut out)
  hidden_step : ∀ a op b out, valid a → admits ⟨a, op, out⟩ →
      step a op = some (b, out) → keeps op = false →
      view b = view a

/- The kept operations alone run to the same view. -/
theorem Run.project {step : S → O → Option (S × R)} {admits : Entry S O R → Prop}
    (proj : Projection step admits) {s t : S} {trace : List (Entry S O R)} (hValid : proj.valid s)
    (hRun : Run step s trace t) (hAdmits : ∀ e ∈ trace, admits e) :
    proj.valid t ∧ ∃ projected, Run step (proj.view s) projected (proj.view t) ∧
          projected.map (fun e => (e.op, e.out)) = (trace.filter (fun e => proj.keeps e.op)).map
              (fun e =>
                (proj.mapOp e.op, proj.mapOut e.out)) := by
  induction hRun with
  | nil => exact ⟨hValid, [], .nil, rfl⟩
  | @snoc front last next op out hFront hLast ih =>
    rcases forall_mem_snoc.mp hAdmits with ⟨hPrior, hEntry⟩
    rcases ih hPrior with ⟨hMid, projected, hProjected, hMap⟩
    refine ⟨proj.valid_step _ _ _ _ hMid hEntry hLast, ?_⟩
    cases hKeeps : proj.keeps op with
    | true =>
      have hStep := proj.kept_step _ _ _ _ hMid hEntry hLast hKeeps
      refine ⟨_, .snoc hProjected hStep, ?_⟩
      simp [hMap, hKeeps]
    | false =>
      have hSame := proj.hidden_step _ _ _ _ hMid hEntry hLast hKeeps
      refine ⟨projected, ?_, ?_⟩
      · rw [hSame]
        exact hProjected
      · simp [hMap, hKeeps]

end Transition
