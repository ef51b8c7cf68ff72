import Sledge.Native.WorkerViews

/-
  The connections of a run of the worker.

  The published generation only grows, the published nonce
  belongs to the connection at hand while it is live, and a
  generation that was announced is either the live one or has
  been closed.

  Main results:
    * `StockWorker.run_scoped`
    * `StockWorker.run_published`
    * `StockWorker.run_charted`
-/

-----
-- The Published Generation And Nonce

namespace Sledge.Native

/- A link has a generation of its own and that one's nonce. -/
structure Link.Named (seed : Nat) (link : Link) : Prop where
  pos : 0 < link.generation
  lt : link.generation < StockWorker.counterSize
  nonce : link.nonce = StockWorker.nonceOf seed link.generation

namespace StockWorker

variable {α : Type} {f : Framing α} {seed : Nat}

/- How a stage is placed against what has been published. -/
def Stage.Scoped (seed generation nonce : Nat) : Stage → Prop
  | .heading attempt => attempt < counterSize ∧ (attempt ≠ 0 → generation < attempt)
  | .attempting attempt => attempt < counterSize ∧ generation < attempt
  | .opening link => link.Named seed ∧ generation < link.generation
  | .announcing link => link.Named seed ∧ generation < link.generation ∧ nonce = link.nonce
  | .live link
  | .hungUp link => link.Named seed ∧ generation = link.generation ∧ nonce = link.nonce
  | .resting attempt => attempt < counterSize ∧ generation ≤ attempt
  | .over => True

namespace StageMoves

variable {stage stage' : Stage} {generation generation' nonce nonce' : Nat} {signal : Signal α}

theorem keeps_scope
    (hMoves : StageMoves seed stage generation nonce signal stage' generation' nonce')
    (hScoped : stage.Scoped seed generation nonce) : stage'.Scoped seed generation' nonce' := by
  cases hMoves with
  | stay _ | close => exact hScoped
  | stop | throw => exact trivial
  | attempt hNonzero => exact ⟨hScoped.1, hScoped.2 hNonzero⟩
  | again => exact ⟨hScoped.1, fun _ => hScoped.2⟩
  | dial => exact ⟨⟨Nat.zero_lt_of_lt hScoped.2, hScoped.1, rfl⟩, hScoped.2⟩
  | fail => exact ⟨hScoped.1.lt, Nat.le_of_lt hScoped.2⟩
  | nonce => exact ⟨hScoped.1, hScoped.2, rfl⟩
  | announce => exact ⟨hScoped.1, rfl, hScoped.2.2⟩
  | record => exact ⟨hScoped.1.lt, Nat.le_of_eq hScoped.2.1⟩
  | rest =>
    refine ⟨Nat.mod_lt _ (by decide), fun hNonzero => ?_⟩
    rename_i resting
    rcases Nat.lt_or_ge (resting + 1) counterSize with hLt | hGe
    · rw [Nat.mod_eq_of_lt hLt]
      exact Nat.lt_succ_of_le hScoped.2
    · -- The attempt after the last one is numbered zero.
      have hLast : resting + 1 = counterSize := Nat.le_antisymm hScoped.1 hGe
      rw [hLast, Nat.mod_self] at hNonzero
      exact absurd rfl hNonzero

theorem generation_le
    (hMoves : StageMoves seed stage generation nonce signal stage' generation' nonce')
    (hScoped : stage.Scoped seed generation nonce) : generation ≤ generation' := by
  cases hMoves with
  | announce => exact Nat.le_of_lt hScoped.2.1
  | _ => exact Nat.le_refl _

/- The published generation moves with its announcement. -/
theorem generation_eq
    (hMoves : StageMoves seed stage generation nonce signal stage' generation' nonce') :
    generation' = generation ∨ ∃ link : Link, signal = .announced link ∧
          generation' = link.generation := by
  cases hMoves <;> simp

variable {link : Link}

theorem live_of_announced
    (hMoves : StageMoves seed stage generation nonce signal stage' generation' nonce')
    (hSignal : signal = .announced link) : stage' = .live link := by
  subst hSignal
  cases hMoves with
  | stay hPlain => cases hPlain
  | announce => rfl

/- A live stage is kept or entered from its announcement. -/
theorem live_of_live
    (hMoves : StageMoves seed stage generation nonce signal stage' generation' nonce')
    (hLive : stage' = .live link) : stage = .live link ∨ stage = .announcing link := by
  cases hMoves <;> simp_all

/- A live connection stays live until it is closed. -/
theorem of_live (hMoves : StageMoves seed stage generation nonce signal stage' generation' nonce')
    (hLive : stage = .live link) : stage' = .live link ∨ signal = .closed link.generation := by
  cases hMoves <;> simp_all

theorem closed_stage
    (hMoves : StageMoves seed stage generation nonce (.closed link.generation : Signal α)
        stage' generation' nonce') (hLive : stage = .live link) : stage' = .hungUp link := by
  subst hLive
  generalize hSignal : Signal.closed link.generation = signal at hMoves
  cases hMoves with
  | stay hPlain =>
    rw [← hSignal] at hPlain
    cases hPlain
  | close => rfl

/- The published nonce is the old one or that of an attempt. -/
theorem nonce_eq (hMoves : StageMoves seed stage generation nonce signal stage' generation' nonce')
    (hScoped : stage.Scoped seed generation nonce) :
    (nonce' = nonce ∧ generation' = generation) ∨
      ∃ attempt, 0 < attempt ∧ nonce' = nonceOf seed attempt := by
  cases hMoves with
  | nonce => exact .inr ⟨_, hScoped.1.pos, hScoped.1.nonce⟩
  | announce => exact .inr ⟨_, hScoped.1.pos, hScoped.2.2.trans hScoped.1.nonce⟩
  | _ => exact .inl ⟨rfl, rfl⟩

end StageMoves

theorem scoped_initial (f : Framing α) :
    (initial f).place.stage.Scoped seed (initial f).connectionGeneration (initial f).connectionNonce := by
  exact ⟨by decide, fun _ => Nat.zero_lt_one⟩

variable {s : StockWorker α} {s' : StockWorker α} {signal : Signal α} {op : Op α}

theorem Stepped.scoped
    (hStep : Stepped f seed s op s' signal)
    (hScoped : s.place.stage.Scoped seed s.connectionGeneration s.connectionNonce) :
    s'.place.stage.Scoped seed s'.connectionGeneration s'.connectionNonce := by
  cases hStep with
  | work _ hWorks => exact hWorks.stage.keeps_scope hScoped
  | call _ hCalls =>
    rw [hCalls.place, hCalls.connectionGeneration, hCalls.connectionNonce]
    exact hScoped
  | decide _ _ => exact hScoped

theorem run_scoped {trace : List (Entry α)} (hRun : Run f seed trace s) :
    s.place.stage.Scoped seed s.connectionGeneration s.connectionNonce :=
  hRun.invariant (P := fun s : StockWorker α =>
      s.place.stage.Scoped seed s.connectionGeneration s.connectionNonce)
    (scoped_initial f)
    (fun _ _ _ _ hBefore hStep =>
      (stepped_of_step hStep).scoped hBefore)

theorem Stepped.generation_le
    (hStep : Stepped f seed s op s' signal)
    (hScoped : s.place.stage.Scoped seed s.connectionGeneration s.connectionNonce) :
    s.connectionGeneration ≤ s'.connectionGeneration := by
  cases hStep with
  | work _ hWorks => exact hWorks.stage.generation_le hScoped
  | call _ hCalls => exact hCalls.connectionGeneration.ge
  | decide _ _ => exact Nat.le_refl _

-----
-- What A Ready Worker Has Published

/- Once a generation is out, the nonce is that of an attempt. -/
structure Published (seed : Nat) (s : StockWorker α) : Prop where
  ready : s.ready = true → s.connectionGeneration ≠ 0
  nonce : s.connectionGeneration ≠ 0 → ∃ attempt, 0 < attempt ∧
        s.connectionNonce = nonceOf seed attempt

theorem Works.published (hWorks : Works f seed s s' signal)
    (hScoped : s.place.stage.Scoped seed s.connectionGeneration s.connectionNonce)
    (hBefore : Published seed s) : Published seed s' := by
  have hGrows := hWorks.stage.generation_le hScoped
  refine ⟨fun hReady => ?_, fun hNonzero => ?_⟩
  · rcases hWorks.kept.ready hReady with hOld | ⟨link, hLive⟩
    · have := hBefore.ready hOld
      omega
    · rw [hLive] at hScoped
      have hPos := hScoped.1.pos
      have hSame := hScoped.2.1
      omega
  · rcases hWorks.stage.nonce_eq hScoped with ⟨hNonce, hSame⟩ | hAttempt
    · rw [hSame] at hNonzero
      rw [hNonce]
      exact hBefore.nonce hNonzero
    · exact hAttempt

theorem Stepped.published
    (hStep : Stepped f seed s op s' signal)
    (hScoped : s.place.stage.Scoped seed s.connectionGeneration s.connectionNonce)
    (hBefore : Published seed s) : Published seed s' := by
  cases hStep with
  | work _ hWorks => exact hWorks.published hScoped hBefore
  | call _ hCalls =>
    constructor
    · intro hReady
      rw [hCalls.connectionGeneration]
      exact hBefore.ready (hCalls.ready hReady)
    · rw [hCalls.connectionGeneration, hCalls.connectionNonce]
      exact hBefore.nonce
  | decide _ _ => exact ⟨hBefore.ready, hBefore.nonce⟩

theorem run_published {trace : List (Entry α)} (hRun : Run f seed trace s) : Published seed s := by
  induction hRun with
  | nil =>
    refine ⟨fun hReady => ?_, fun hNonzero => ?_⟩
    · cases hReady
    · exact absurd rfl hNonzero
  | snoc hFront hStep ih => exact (stepped_of_step hStep).published (run_scoped hFront) ih

-----
-- Announced, Then Closed

/- The run has shown this signal. -/
def Shown (trace : List (Entry α)) (signal : Signal α) : Prop := ∃ e ∈ trace, e.out = signal

variable {trace : List (Entry α)} {signal : Signal α} {e : Entry α}

theorem Shown.snoc (hShown : Shown trace signal) : Shown (trace ++ [e]) signal := by
  rcases hShown with ⟨d, hMem, hOut⟩
  exact ⟨d, List.mem_append_left _ hMem, hOut⟩

theorem shown_last : Shown (trace ++ [e]) e.out :=
  ⟨e, List.mem_append_right _ List.mem_cons_self, rfl⟩

theorem shown_snoc : Shown (trace ++ [e]) signal ↔ Shown trace signal ∨ e.out = signal := by
  constructor
  · rintro ⟨d, hMem, hOut⟩
    rcases List.mem_append.mp hMem with hOld | hLast
    · exact .inl ⟨d, hOld, hOut⟩
    · rw [List.mem_singleton.mp hLast] at hOut
      exact .inr hOut
  · rintro (hOld | rfl)
    · exact hOld.snoc
    · exact shown_last

/-
  Every announced connection is the live one or was closed, the published generation was
  announced, and a retirement was asked for.
-/
structure Charted (trace : List (Entry α)) (s : StockWorker α) : Prop where
  announced : ∀ link, Shown trace (.announced link) → Shown trace (.closed link.generation) ∨
        s.place.stage = .live link
  current : s.connectionGeneration ≠ 0 → ∃ link, link.generation = s.connectionGeneration ∧
        Shown trace (.announced link)
  retiring : s.retirementGeneration ≠ 0 → Shown trace (.retiring s.retirementGeneration)

theorem Works.charted (hWorks : Works f seed s s' signal)
    (hBefore : Charted trace s) : Charted (trace ++ [⟨s, op, signal⟩]) s' := by
  refine ⟨fun link hShown => ?_, fun hNonzero => ?_, ?_⟩
  · rcases shown_snoc.mp hShown with hOld | hNow
    · rcases hBefore.announced link hOld with hClosed | hLive
      · exact .inl hClosed.snoc
      · rcases hWorks.stage.of_live hLive with hStays | hNow
        · exact .inr hStays
        · exact .inl (shown_snoc.mpr (.inr hNow))
    · exact .inr (hWorks.stage.live_of_announced hNow)
  · rcases hWorks.stage.generation_eq with hSame | ⟨link, hNow, hNew⟩
    · rw [hSame] at hNonzero ⊢
      rcases hBefore.current hNonzero with ⟨link, hLink, hShown⟩
      exact ⟨link, hLink, hShown.snoc⟩
    · exact ⟨link, hNew.symm, shown_snoc.mpr (.inr hNow)⟩
  · rw [hWorks.kept.retirementGeneration]
    exact fun hNonzero => (hBefore.retiring hNonzero).snoc

theorem Stepped.charted (hStep : Stepped f seed s op s' signal)
    (hBefore : Charted trace s) : Charted (trace ++ [⟨s, op, signal⟩]) s' := by
  cases hStep with
  | work _ hWorks => exact hWorks.charted hBefore
  | call _ hCalls =>
    refine ⟨fun link hShown => ?_, fun hNonzero => ?_, ?_⟩
    · rcases shown_snoc.mp hShown with hOld | hNow
      · rw [hCalls.place]
        exact (hBefore.announced link hOld).imp_left .snoc
      · have hPlain := hCalls.stagePlain
        dsimp only at hNow
        rw [hNow] at hPlain
        cases hPlain
    · rw [hCalls.connectionGeneration] at hNonzero ⊢
      rcases hBefore.current hNonzero with ⟨link, hSame, hShown⟩
      exact ⟨link, hSame, hShown.snoc⟩
    · intro hNonzero
      rcases hCalls.retirementGeneration with hSame | hNow
      · rw [hSame] at hNonzero ⊢
        exact (hBefore.retiring hNonzero).snoc
      · rw [← hNow]
        exact shown_last
  | decide _ _ =>
    refine ⟨fun link hShown => ?_, fun hNonzero => ?_, ?_⟩
    · rcases shown_snoc.mp hShown with hOld | hNow
      · exact (hBefore.announced link hOld).imp_left .snoc
      · cases hNow
    · rcases hBefore.current hNonzero with ⟨link, hSame, hShown⟩
      exact ⟨link, hSame, hShown.snoc⟩
    · exact fun hNonzero => (hBefore.retiring hNonzero).snoc

theorem run_charted (hRun : Run f seed trace s) : Charted trace s := by
  induction hRun with
  | nil =>
    refine ⟨?_, fun h => absurd rfl h, fun h => absurd rfl h⟩
    rintro link ⟨e, hMem, _⟩
    cases hMem
  | snoc _ hStep ih => exact (stepped_of_step hStep).charted ih

/- A generation older than the live one has been closed. -/
theorem closed_of_lt {link older : Link} (hCharted : Charted trace s)
    (hLive : s.place.stage = .live link) (hShown : Shown trace (.announced older))
    (hLt : older.generation < link.generation) : Shown trace (.closed older.generation) := by
  rcases hCharted.announced older hShown with hClosed | hSame
  · exact hClosed
  · rw [hLive] at hSame
    cases hSame
    exact absurd hLt (Nat.lt_irrefl _)

end StockWorker

end Sledge.Native
