import Mathlib.Data.List.Forall2
import Sledge.Native.RingWindow

/-
  What becomes of a notification.

  What the worker sends is a subsequence of what `notify`
  accepted, each on the connection that was current when it
  was queued.  A notification that is consumed without being
  sent was tagged with a closed connection, with a generation
  retired for drain, or before any connection.

  Main results:
    * `StockWorker.run_custody`
    * `StockWorker.run_settled`
    * `StockWorker.run_ordered`
    * `StockWorker.run_progress`
    * `StockWorker.notification_ring`
-/

-----
-- What Is Known Of A Queued Packet

namespace Sledge.Native

namespace StockWorker

variable {α : Type} {f : Framing α} {seed : Nat}

/-
  Its generation has been published.  While that connection is live the packet carries its
  nonce; and a packet that was offered before any connection was published named one that
  was still to come.
-/
structure Known (f : Framing α) (seed : Nat) (s : StockWorker α) (n : Notification α) : Prop where
  published : n.generation ≤ s.connectionGeneration
  nonce : ∀ link, s.place.stage = .live link → n.generation = link.generation →
      f.nonce n.packet = link.nonce
  named : n.generation = 0 → ∃ attempt, 0 < attempt ∧ f.nonce n.packet = nonceOf seed attempt

variable {s s' : StockWorker α} {op : Op α} {signal : Signal α} {trace : List (Entry α)}

theorem Known.step {n : Notification α} (hStep : Stepped f seed s op s' signal)
    (hRun : Run f seed trace s) (hKnown : Known f seed s n) : Known f seed s' n := by
  have hScoped := run_scoped hRun
  refine ⟨Nat.le_trans hKnown.published (hStep.generation_le hScoped), ?_, hKnown.named⟩
  intro link hLive hSame
  cases hStep with
  | work _ hWorks =>
    rcases hWorks.stage.live_of_live hLive with hStays | hNew
    · exact hKnown.nonce link hStays hSame
    · -- A new connection is younger than all that is queued.
      rw [hNew] at hScoped
      have hOld := hKnown.published
      have hYoung := hScoped.2.1
      omega
  | call _ hCalls =>
    rw [hCalls.place] at hLive
    exact hKnown.nonce link hLive hSame
  | decide _ _ => exact hKnown.nonce link hLive hSame

/- What is known of the packet of a `notify` in progress. -/
def Writer.Known (f : Framing α) (seed : Nat) (s : StockWorker α) : Writer α → Prop
  | .none => True
  | .asked _ generation => generation ≤ s.connectionGeneration
  | .ready _ generation
  | .room _ generation => generation ≤ s.connectionGeneration ∧ s.connectionGeneration ≠ 0
  | .admitted packet generation
  | .written packet generation => StockWorker.Known f seed s ⟨packet, generation⟩

structure Custody (f : Framing α) (seed : Nat) (trace : List (Entry α)) (s : StockWorker α) :
    Prop where
  queued : ∀ x ∈ queued trace, Known f seed s x.1 ∧ x.1.generation ≤ x.2 ∧
        x.2 ≤ s.connectionGeneration
  writer : s.caller.writer.Known f seed s

variable {writer : Writer α}

theorem Writer.Known.step (hStep : Stepped f seed s op s' signal) (hRun : Run f seed trace s)
    (hKnown : writer.Known f seed s) : writer.Known f seed s' := by
  have hGrows := hStep.generation_le (run_scoped hRun)
  cases writer with
  | none => exact trivial
  | asked _ _ => exact Nat.le_trans hKnown hGrows
  | ready _ _ | room _ _ => exact ⟨Nat.le_trans hKnown.1 hGrows, fun hZero => hKnown.2 (by omega)⟩
  | admitted _ _ | written _ _ => exact .step hStep hRun hKnown

/- The nonce test makes the packet known. -/
theorem known_of_admitted {packet : α} {generation : Nat} (hRun : Run f seed trace s)
    (hNonce : f.nonce packet = s.connectionNonce)
    (hLe : generation ≤ s.connectionGeneration) (hNonzero : s.connectionGeneration ≠ 0) :
    Known f seed s ⟨packet, generation⟩ where
  published := hLe
  nonce := by
    intro link hLive _
    have hScoped := run_scoped hRun
    rw [hLive] at hScoped
    exact hNonce.trans hScoped.2.2
  named := by
    intro _
    rcases (run_published hRun).nonce hNonzero with ⟨attempt, hPos, hAttempt⟩
    exact ⟨attempt, hPos, hNonce.trans hAttempt⟩

theorem WriterMoves.known {writer' : Writer α} {ring : RingBuffer (Notification α) capacity}
    (hMoves : WriterMoves f s writer signal writer' ring) (hRun : Run f seed trace s)
    (hKnown : writer.Known f seed s) :
    writer'.Known f seed s ∧ ∀ n, signal = .queued n → StockWorker.Known f seed s n := by
  cases hMoves with
  | stay hPlain =>
    refine ⟨trivial, ?_⟩
    rintro n rfl
    cases hPlain
  | ask => exact ⟨Nat.le_refl _, fun _ hNo => by cases hNo⟩
  | refuse => exact ⟨trivial, fun _ hNo => by cases hNo⟩
  | ready hReady => exact ⟨⟨hKnown, (run_published hRun).ready hReady⟩, fun _ hNo => by cases hNo⟩
  | matched hNonce =>
    exact ⟨known_of_admitted hRun hNonce hKnown.1 hKnown.2, fun _ hNo => by cases hNo⟩
  | publish =>
    refine ⟨trivial, ?_⟩
    rintro n hQueued
    cases hQueued
    exact hKnown
  | _ => exact ⟨hKnown, fun _ hNo => by cases hNo⟩

theorem Stepped.custody (hStep : Stepped f seed s op s' signal) (hRun : Run f seed trace s)
    (hBefore : Custody f seed trace s) : Custody f seed (trace ++ [⟨s, op, signal⟩]) s' := by
  have hGrows := hStep.generation_le (run_scoped hRun)
  have hOld : ∀ x ∈ StockWorker.queued trace, Known f seed s' x.1 ∧ x.1.generation ≤ x.2 ∧
      x.2 ≤ s'.connectionGeneration := by
    intro x hMem
    rcases hBefore.queued x hMem with ⟨hKnown, hLe, hCurrent⟩
    exact ⟨hKnown.step hStep hRun, hLe, Nat.le_trans hCurrent hGrows⟩
  have hQueued : (∀ n, signal = .queued n → Known f seed s n) →
      ∀ x ∈ StockWorker.queued (trace ++ [⟨s, op, signal⟩]),
        Known f seed s' x.1 ∧ x.1.generation ≤ x.2 ∧ x.2 ≤ s'.connectionGeneration := by
    intro hNew x hMem
    rw [queued_snoc] at hMem
    rcases List.mem_append.mp hMem with hMem | hMem
    · exact hOld x hMem
    · cases signal with
      | queued n =>
        obtain rfl := List.mem_singleton.mp hMem
        have hKnown := hNew n rfl
        exact ⟨hKnown.step hStep hRun, hKnown.published, hGrows⟩
      | _ => cases hMem
  have hWriter : ∀ writer : Writer α, writer.Known f seed s → writer.Known f seed s' :=
    fun _ hKnown => hKnown.step hStep hRun
  cases hStep with
  | work _ hWorks =>
    refine ⟨hQueued ?_, ?_⟩
    · rintro n rfl
      exact absurd rfl (hWorks.reader.not_queued n)
    · rw [hWorks.kept.caller]
      exact hWriter _ hBefore.writer
  | call _ hCalls =>
    have hKnown := hCalls.writer.known hRun hBefore.writer
    exact ⟨hQueued hKnown.2, hWriter _ hKnown.1⟩
  | decide _ _ =>
    refine ⟨hQueued (fun _ hNo => by cases hNo), ?_⟩
    exact hWriter _ hBefore.writer

theorem run_custody (hRun : Run f seed trace s) : Custody f seed trace s := by
  induction hRun with
  | nil =>
    refine ⟨fun x hMem => ?_, trivial⟩
    cases hMem
  | snoc hFront hStep ih => exact (stepped_of_step hStep).custody hFront ih

/- A generation that was published has been announced. -/
def Announced (trace : List (Entry α)) (generation : Nat) : Prop :=
  generation ≠ 0 → ∃ link : Link, link.generation = generation ∧ Shown trace (.announced link)

theorem Announced.snoc {generation : Nat} {e : Entry α} (hAnnounced : Announced trace generation) :
    Announced (trace ++ [e]) generation := by
  intro hNonzero
  rcases hAnnounced hNonzero with ⟨link, hSame, hShown⟩
  exact ⟨link, hSame, hShown.snoc⟩

/- The generation a `notify` in progress has loaded. -/
def Writer.generation : Writer α → Option Nat
  | .none => Option.none
  | .asked _ generation
  | .ready _ generation
  | .room _ generation
  | .admitted _ generation
  | .written _ generation => some generation

theorem WriterMoves.generation {writer' : Writer α} {ring : RingBuffer (Notification α) capacity}
    (hMoves : WriterMoves f s writer signal writer' ring) :
    (∀ g ∈ writer'.generation, g ∈ writer.generation ∨ g = s.connectionGeneration) ∧
      ∀ n, signal = .queued n → n.generation ∈ writer.generation := by
  cases hMoves with
  | stay hPlain =>
    refine ⟨by simp [Writer.generation], ?_⟩
    rintro n rfl
    cases hPlain
  | _ => simp [Writer.generation]

structure Recorded (trace : List (Entry α)) (s : StockWorker α) : Prop where
  queued : ∀ x ∈ queued trace, Announced trace x.1.generation
  writer : ∀ g ∈ s.caller.writer.generation, Announced trace g

theorem Stepped.recorded (hStep : Stepped f seed s op s' signal) (hCharted : Charted trace s)
    (hBefore : Recorded trace s) : Recorded (trace ++ [⟨s, op, signal⟩]) s' := by
  have hQueued : (∀ n, signal = .queued n → Announced trace n.generation) →
      ∀ x ∈ StockWorker.queued (trace ++ [⟨s, op, signal⟩]), Announced (trace ++ [⟨s, op, signal⟩])
          x.1.generation := by
    intro hNew x hMem
    rw [queued_snoc] at hMem
    rcases List.mem_append.mp hMem with hMem | hMem
    · exact (hBefore.queued x hMem).snoc
    · cases signal with
      | queued n =>
        obtain rfl := List.mem_singleton.mp hMem
        exact (hNew n rfl).snoc
      | _ => cases hMem
  cases hStep with
  | work _ hWorks =>
    refine ⟨hQueued ?_, ?_⟩
    · rintro n rfl
      exact absurd rfl (hWorks.reader.not_queued n)
    · rw [hWorks.kept.caller]
      exact fun g hMem => (hBefore.writer g hMem).snoc
  | call _ hCalls =>
    refine ⟨hQueued ?_, fun g hMem => ?_⟩
    · intro n hSignal
      exact hBefore.writer _ (hCalls.writer.generation.2 n hSignal)
    · rcases hCalls.writer.generation.1 g hMem with hOld | rfl
      · exact (hBefore.writer g hOld).snoc
      · exact .snoc hCharted.current
  | decide _ _ =>
    refine ⟨hQueued (fun _ hNo => by cases hNo), ?_⟩
    exact fun g hMem => (hBefore.writer g hMem).snoc

theorem run_recorded (hRun : Run f seed trace s) : Recorded trace s := by
  induction hRun with
  | nil =>
    refine ⟨fun x hMem => ?_, fun g hMem => ?_⟩
    · cases hMem
    · cases hMem
  | snoc hFront hStep ih => exact (stepped_of_step hStep).recorded (run_charted hFront) ih

-----
-- Every Consumed Notification Is Accounted For

/-
  Why a notification was consumed: it was sent, the connection of the generation `notify`
  loaded was closed, or that generation was retired for drain.  A packet offered before any
  connection was published has generation 0; it named one still to come.
-/
def Accounts (f : Framing α) (seed : Nat) (trace : List (Entry α)) (n : Notification α) : Fate → Prop
  | .delivered => ∃ link, Shown trace (.sent link n)
  | .skipped =>
    Shown trace (.closed n.generation) ∨ (n.generation = 0 ∧ ∃ attempt, 0 < attempt ∧
          f.nonce n.packet = nonceOf seed attempt)
  | .retired generation =>
    generation ≠ 0 ∧ n.generation = generation ∧ Shown trace (.retiring generation)

variable {n : Notification α}

theorem Accounts.snoc {fate : Fate} {e : Entry α} (hAccounts : Accounts f seed trace n fate) :
    Accounts f seed (trace ++ [e]) n fate := by
  cases fate with
  | delivered =>
    rcases hAccounts with ⟨link, hShown⟩
    exact ⟨link, hShown.snoc⟩
  | skipped => exact hAccounts.imp_left .snoc
  | retired generation => exact ⟨hAccounts.1, hAccounts.2.1, hAccounts.2.2.snoc⟩

/- What the worker has decided about what it holds. -/
def Reader.Explained (f : Framing α) (seed : Nat) (trace : List (Entry α)) : Reader α → Prop
  | .holding _ n (some true) => Accounts f seed trace n .delivered
  | .holding _ n (some false) => Accounts f seed trace n .skipped
  | .draining retired
  | .skipping retired _ _
  | .settled retired _ => retired ≠ 0 ∧ Shown trace (.retiring retired)
  | _ => True

theorem Reader.Explained.snoc {reader : Reader α} {e : Entry α}
    (hExplained : reader.Explained f seed trace) : reader.Explained f seed (trace ++ [e]) := by
  cases reader with
  | holding _ n delivered =>
    cases delivered with
    | none => exact trivial
    | some delivered =>
      cases delivered with
      | true =>
        have hAccounts : Accounts f seed trace n .delivered := hExplained
        exact hAccounts.snoc
      | false =>
        have hAccounts : Accounts f seed trace n .skipped := hExplained
        exact hAccounts.snoc
  | none | fetching _ => exact trivial
  | draining _ | skipping _ _ _ | settled _ _ => exact ⟨hExplained.1, hExplained.2.snoc⟩

/- A skipped notification belongs to an older connection. -/
theorem accounts_skipped {link : Link} (hRun : Run f seed trace s) (hKnown : Known f seed s n)
    (hAnnounced : Announced trace n.generation) (hLive : s.place.stage = .live link)
    (hMismatch : n.generation ≠ link.generation ∨ f.nonce n.packet ≠ link.nonce) :
    Accounts f seed trace n .skipped := by
  have hOther : n.generation ≠ link.generation := by
    intro hSame
    exact hMismatch.elim (fun h => h hSame) (fun h => h (hKnown.nonce link hLive hSame))
  by_cases hZero : n.generation = 0
  · exact .inr ⟨hZero, hKnown.named hZero⟩
  · rcases hAnnounced hZero with ⟨older, hOlder, hShown⟩
    have hScoped := run_scoped hRun
    rw [hLive] at hScoped
    have hLe := hKnown.published
    have hCurrent := hScoped.2.1
    refine .inl ?_
    rw [← hOlder]
    exact closed_of_lt (run_charted hRun) hLive hShown (by omega)

/- The head of the ring was queued, and is known. -/
theorem head_queued {rest : List (Notification α)} (hItems : items trace = n :: rest) :
    ∃ current, (n, current) ∈ queued trace ∧ (pending trace).head? = some (n, current) := by
  cases hPending : pending trace with
  | nil => simp [items, hPending] at hItems
  | cons x more =>
    simp only [items, hPending, List.map_cons, List.cons.injEq] at hItems
    refine ⟨x.2, ?_, ?_⟩
    · have hMem : x ∈ pending trace := by simp [hPending]
      have := List.mem_of_mem_drop hMem
      rw [← hItems.1]
      exact this
    · rw [← hItems.1]
      rfl

variable {s' : StockWorker α}

theorem Works.explained {op : Op α} (hWorks : Works f seed s s' signal)
    (hRun : Run f seed trace s) (hBefore : s.place.reader.Explained f seed trace) :
    s'.place.reader.Explained f seed (trace ++ [⟨s, op, signal⟩]) := by
  have hReader := hWorks.reader
  have hFits := (run_window hRun).reader
  generalize s.place.reader = reader at hReader hFits hBefore
  generalize s'.place.reader = reader' at hReader ⊢
  generalize s'.ring.read = read at hReader
  cases hReader with
  | send hLive hGeneration hNonce => exact ⟨_, shown_last⟩
  | skip hLive hMismatch =>
    rcases hFits with ⟨_, rest, hItems⟩
    rcases head_queued hItems with ⟨current, hMem, _⟩
    have hKnown := ((run_custody hRun).queued _ hMem).1
    have hAnnounced := (run_recorded hRun).queued _ hMem
    exact (accounts_skipped hRun hKnown hAnnounced hLive hMismatch).snoc
  | drain hNonzero => exact ⟨hNonzero, ((run_charted hRun).retiring hNonzero).snoc⟩
  | settle => exact .snoc hBefore
  | scan | pass _ _ | settled => exact ⟨hBefore.1, hBefore.2.snoc⟩
  | _ => exact trivial

/- The fates of what has been consumed, in the order queued. -/
structure Settled (f : Framing α) (seed : Nat) (trace : List (Entry α)) (s : StockWorker α) :
    Prop where
  reader : s.place.reader.Explained f seed trace
  fates : List.Forall₂ (Accounts f seed trace)
      (((queued trace).take (fates trace).length).map Prod.fst)
      (StockWorker.fates trace)

/- What a step of the worker consumes, it accounts for. -/
theorem ReaderMoves.accounts {reader reader' : Reader α} {read : Nat} (op : Op α)
    (hMoves : ReaderMoves f s reader signal reader' read)
    (hHolds : s.ring.Holds indexSize (items trace)) (hFits : reader.Fits s.ring.read (items trace))
    (hExplained : reader.Explained f seed trace) :
    List.Forall₂ (Accounts f seed trace) ((items trace).take (fatesBy ⟨s, op, signal⟩).length)
      (fatesBy ⟨s, op, signal⟩) := by
  cases hMoves with
  | stay hPlain =>
    rw [(queuedBy_of_plain (e := ⟨s, op, signal⟩) hPlain).2.1]
    exact .nil
  | @consume _ n delivered =>
    rcases hFits with ⟨_, rest, hItems⟩
    cases delivered <;>
      simp only [fatesBy, List.length_singleton, hItems, List.take_succ_cons, List.take_zero] <;>
      exact .cons hExplained .nil
  | @retire retired _ =>
    rcases hFits with ⟨k, hk, rfl, hAll⟩
    have hFull := hHolds.fits
    have hSize := capacity_lt
    rw [RingBuffer.offset_eq hHolds.read_lt (by omega)]
    simp only [fatesBy, List.length_replicate]
    rw [List.forall₂_iff_get]
    refine ⟨by simp [hk], fun i hi _ => ?_⟩
    simp only [List.get_eq_getElem, List.getElem_replicate]
    exact ⟨hExplained.1, hAll _ (List.getElem_mem _), hExplained.2⟩
  | _ => exact .nil

theorem Stepped.settled {op : Op α} (hStep : Stepped f seed s op s' signal)
    (hRun : Run f seed trace s) (hBefore : Settled f seed trace s) :
    Settled f seed (trace ++ [⟨s, op, signal⟩]) s' := by
  have hOld : List.Forall₂ (Accounts f seed (trace ++ [⟨s, op, signal⟩]))
      (((queued trace).take (fates trace).length).map Prod.fst)
      (fates trace) :=
    hBefore.fates.imp (fun _ _ hAccounts => hAccounts.snoc)
  have hWindow := run_window hRun
  cases hStep with
  | @work a _ _ _ hWorks =>
    rcases hWorks.reader.window (.work a) hWindow.holds hWindow.reader with ⟨hQueued, hCount, _, _⟩
    have hNew := hWorks.reader.accounts (.work a) hWindow.holds hWindow.reader hBefore.reader
    refine ⟨hWorks.explained hRun hBefore.reader, ?_⟩
    rw [queued_snoc, hQueued, Option.toList_none, List.append_nil, fates_snoc, List.length_append,
      List.take_add, List.map_append]
    refine List.rel_append hOld ?_
    rw [List.map_take]
    exact hNew.imp (fun _ _ hAccounts => hAccounts.snoc)
  | call _ hCalls =>
    refine ⟨?_, ?_⟩
    · rw [hCalls.place]
      exact hBefore.reader.snoc
    · rw [fates_snoc, (hCalls.fatesBy_eq op).1, List.append_nil, queued_snoc,
        List.take_append_of_le_length hWindow.counted]
      exact hOld
  | decide _ _ =>
    refine ⟨hBefore.reader.snoc, ?_⟩
    rw [fates_snoc, queued_snoc]
    simpa [queuedBy, fatesBy] using hOld

theorem run_settled (hRun : Run f seed trace s) : Settled f seed trace s := by
  induction hRun with
  | nil => exact ⟨trivial, .nil⟩
  | snoc hFront hStep ih => exact (stepped_of_step hStep).settled hFront ih

-----
-- What Is Sent Was Queued, In That Order

/- The head of the ring, if it was sent and not yet consumed. -/
def Reader.inFlight : Reader α → Nat
  | .holding _ _ (some true) => 1
  | _ => 0

/- What was sent is part of what was consumed or is in flight. -/
structure Ordered (f : Framing α) (trace : List (Entry α)) (s : StockWorker α) : Prop where
  sent : (sent trace).Sublist ((queued trace).take ((fates trace).length + s.place.reader.inFlight))
  link : ∀ link n, Shown trace (.sent link n) → n.generation = link.generation ∧
        f.nonce n.packet = link.nonce

/-
  On the live connection, the head of the ring was queued while that connection was
  current.
-/
theorem head_current {link : Link} {n : Notification α} {rest : List (Notification α)}
    (hRun : Run f seed trace s) (hItems : items trace = n :: rest)
    (hLive : s.place.stage = .live link) (hSame : n.generation = link.generation) :
    (pending trace).head? = some (n, link.generation) := by
  rcases head_queued hItems with ⟨current, hMem, hHead⟩
  have hLe := ((run_custody hRun).queued _ hMem).2
  have hScoped := run_scoped hRun
  rw [hLive] at hScoped
  have hCurrent := hScoped.2.1
  dsimp only at hLe
  have hEq : current = link.generation := by omega
  rw [hHead, hEq]

theorem Works.ordered {op : Op α} {signal : Signal α}
    (hWorks : Works f seed s s' signal) (hRun : Run f seed trace s) (hBefore : Ordered f trace s) :
    Ordered f (trace ++ [⟨s, op, signal⟩]) s' := by
  have hReader := hWorks.reader
  have hWindow := run_window hRun
  have hFits := hWindow.reader
  have hSent := hBefore.sent
  have hQueued := (hReader.window op hWindow.holds hFits).1
  refine ⟨?_, fun link n hShown => ?_⟩
  · rw [queued_snoc, hQueued, sent_snoc, fates_snoc]
    generalize s.place.reader = reader at hReader hFits hSent
    generalize s'.place.reader = reader' at hReader ⊢
    generalize s'.ring.read = read at hReader
    simp only [Option.toList_none, List.append_nil, List.length_append]
    have hGrow : ∀ k, (fates trace).length + reader.inFlight ≤ k → (StockWorker.sent trace).Sublist
        ((queued trace).take k) := by
      intro k hk
      exact hSent.trans (List.take_sublist_take_left hk)
    cases hReader with
    | @send link _ n hLive hGeneration hNonce =>
      rcases hFits with ⟨_, rest, hItems⟩
      have hHead := head_current hRun hItems hLive hGeneration
      simp only [sentBy, fatesBy, Reader.inFlight,
        Option.toList_some, List.length_nil, Nat.add_zero]
      rw [pending] at hHead
      rw [List.take_add_one, ← List.head?_drop, hHead]
      exact (hGrow _ (Nat.le_refl _)).append (.refl _)
    | stay hPlain =>
      have hNothing := queuedBy_of_plain (e := ⟨s, op, signal⟩) hPlain
      rw [hNothing.2.1, hNothing.2.2]
      simpa using hGrow _ (Nat.le_refl _)
    | @consume _ n delivered =>
      cases delivered <;>
        simpa [sentBy, fatesBy, Reader.inFlight] using hGrow _ (by simp [Reader.inFlight])
    | _ => simpa [sentBy, fatesBy, Reader.inFlight] using hGrow _ (by simp [Reader.inFlight])
  · rcases shown_snoc.mp hShown with hOld | hNow
    · exact hBefore.link link n hOld
    · dsimp only at hNow
      subst hNow
      generalize s.place.reader = reader at hReader
      generalize s'.place.reader = reader' at hReader
      generalize s'.ring.read = read at hReader
      cases hReader with
      | stay hPlain => cases hPlain
      | send _ hGeneration hNonce => exact ⟨hGeneration, hNonce⟩

theorem Stepped.ordered {op : Op α} {signal : Signal α}
    (hStep : Stepped f seed s op s' signal) (hRun : Run f seed trace s)
    (hBefore : Ordered f trace s) :
    Ordered f (trace ++ [⟨s, op, signal⟩]) s' := by
  cases hStep with
  | work _ hWorks => exact hWorks.ordered hRun hBefore
  | call _ hCalls =>
    have hNone := hCalls.fatesBy_eq op
    refine ⟨?_, fun link n hShown => ?_⟩
    · rw [sent_snoc, hNone.2, fates_snoc, hNone.1, queued_snoc, hCalls.place]
      simp only [Option.toList_none, List.append_nil, List.take_append]
      exact hBefore.sent.trans (List.sublist_append_left _ _)
    · rcases shown_snoc.mp hShown with hOld | hNow
      · exact hBefore.link link n hOld
      · have hNot := hNone.2
        dsimp only at hNow
        rw [hNow] at hNot
        cases hNot
  | decide _ _ =>
    refine ⟨?_, fun link n hShown => ?_⟩
    · simpa [sent_snoc, fates_snoc, queued_snoc, sentBy, fatesBy, queuedBy] using hBefore.sent
    · rcases shown_snoc.mp hShown with hOld | hNow
      · exact hBefore.link link n hOld
      · cases hNow

theorem run_ordered (hRun : Run f seed trace s) : Ordered f trace s := by
  induction hRun with
  | nil =>
    refine ⟨.refl _, fun link n hShown => ?_⟩
    rcases hShown with ⟨e, hMem, _⟩
    cases hMem
  | snoc hFront hStep ih => exact (stepped_of_step hStep).ordered hFront ih

end StockWorker

-----
-- The Worker Reaches Every Notification

/- How many accesses a mailbox call of the worker has left. -/
def Serve.rank {α : Type} : Serve α → Nat
  | .outside => 0
  | .acknowledging | .waking => 1
  | .dropping => 2
  | .answering _ _ _ => 3
  | .writingReply _ _ _ => 4
  | .serving _ _ => 5
  | .copyingDeadline _ => 6
  | .copyingRequest => 7

theorem Exchange.rank_serve {α : Type} {s s' : Exchange α} {signal : Signal α}
    (hStep : s.step .serve = some (s', signal)) : s'.worker.rank < s.worker.rank := by
  cases stepped_of_step hStep with
  | serve hServes =>
    generalize s.worker = worker at hServes ⊢
    cases hServes <;> simp [Serve.rank]

theorem Exchange.rank_le {α : Type} (worker : Serve α) : worker.rank ≤ 7 := by
  cases worker <;> simp [Serve.rank]

namespace StockWorker

variable {α : Type} {f : Framing α} {seed : Nat}

/-
  How many steps of its own the worker is away from consuming the head of a nonempty ring,
  or from closing.
-/
def Place.rank (worker : Serve α) : Place α → Nat
  | .hangingUp _ | .consuming _ _ _ _ => 1
  | .closing _ => 2
  | .delivering _ _ _ => 3
  | .fetching _ _ => 4
  | .polling _ => 5
  | .parkRing _ => 6
  | .parkTest _ => 7
  | .looping _ => 8
  | .readying _
  | .parking _
  | .idling _
  | .deactivating _ _ => 9
  | .parkMailbox _ => 10
  | .finishing _ _ => 9 + worker.rank
  | .completing _ _ _ => 17
  | .receiving _ _ _ _ => 18
  | .sendingEvent _ _ _ => 19
  | .activating _ _ _ => 20
  | .taken _ => 20 + worker.rank
  | .taking _ => 28
  | _ => 0

/- The steps a notification at the head can have to wait. -/
def stride : Nat := 29

def rank (s : StockWorker α) : Nat := s.place.rank s.exchange.worker

theorem rank_lt_stride (s : StockWorker α) : s.rank < stride := by
  have hLe := Exchange.rank_le s.exchange.worker
  unfold rank stride
  cases s.place <;> simp only [Place.rank] <;> omega

variable {link : Link} {s s' : StockWorker α} {signal : Signal α} {tail : List (Entry α)}

theorem rank_afterTake {exchange : Exchange α} {n : Nat} (hLt : exchange.worker.rank < n) :
    (afterTake link exchange).rank exchange.worker < 20 + n := by
  unfold afterTake
  split <;> simp only [Place.rank] <;> omega

theorem rank_afterComplete {accepted : Bool} {exchange : Exchange α} {n : Nat}
    (hLt : exchange.worker.rank < n) :
    (afterComplete link accepted exchange).rank exchange.worker < 9 + n := by
  unfold afterComplete
  split <;> simp only [Place.rank] <;> omega

/- With a notification to read, every step gets closer to it. -/
theorem rank_work {a : Ambient α} (hStep : s.work f seed a = some (s', signal))
    (hLive : s.place.stage = .live link) (hNonempty : s.ring.read ≠ s.ring.write) :
    s'.rank < s.rank ∨ (∃ n d, signal = .consumed n d) ∨ signal = .closed link.generation := by
  have hRank : s.rank = s.place.rank s.exchange.worker := rfl
  generalize hPlace : s.place = place at hStep hLive hRank
  rw [hRank]
  cases place <;> simp only [Place.stage, reduceCtorEq] at hLive
  all_goals
    simp only [work, hPlace, workRun, workConnect, workLoop, workTransaction, goto, onMailbox,
      Option.or_none, Option.none_or, Option.map_eq_some_iff] at hStep
  case taking =>
    rcases hStep with ⟨x, _, hSame⟩
    cases hSame
    exact .inl (rank_afterTake (Nat.lt_succ_of_le (Exchange.rank_le x.1.worker)))
  case taken =>
    rcases hStep with ⟨x, hServe, hSame⟩
    cases hSame
    exact .inl (rank_afterTake (Exchange.rank_serve hServe))
  case completing =>
    rcases hStep with ⟨x, _, hSame⟩
    cases hSame
    exact .inl (rank_afterComplete (Nat.lt_succ_of_le (Exchange.rank_le x.1.worker)))
  case finishing =>
    rcases hStep with ⟨x, hServe, hSame⟩
    cases hSame
    exact .inl (rank_afterComplete (Exchange.rank_serve hServe))
  case consuming =>
    cases hStep
    exact .inr (.inl ⟨_, _, rfl⟩)
  case hangingUp =>
    cases hStep
    cases hLive
    exact .inr (.inr rfl)
  all_goals repeat' split at hStep
  all_goals cases hStep
  all_goals
    first
    | exact absurd ‹_› hNonempty
    | exact .inl (by simp [rank, Place.rank])

/- Only steps of the worker change its rank. -/
theorem Stepped.rank_eq {op : Op α} (hStep : Stepped f seed s op s' signal)
    (hOp : op.isWork = false) : s'.rank = s.rank ∧ s'.place = s.place := by
  cases hStep with
  | work _ _ => cases hOp
  | call _ hCalls =>
    exact ⟨by rw [rank, rank, hCalls.place, hCalls.exchange],
      hCalls.place⟩
  | decide _ hWorker => exact ⟨by simp [rank, hWorker], rfl⟩

/- What a run appends to the two histories. -/
theorem fates_append (front tail : List (Entry α)) :
    fates (front ++ tail) = fates front ++ fates tail := by
  simp [fates]

theorem queued_append (front tail : List (Entry α)) :
    queued (front ++ tail) = queued front ++ queued tail := by
  simp [queued]

theorem read_ne_write {front : List (Entry α)} {t : StockWorker α}
    (hRun : Run f seed (front ++ tail) t) (hFewer : (fates tail).length < (pending front).length) :
    t.ring.read ≠ t.ring.write := by
  have hWindow := run_window hRun
  intro hSame
  have hEmpty := (hWindow.holds.read_eq_write_iff capacity_lt).mp hSame
  have hLength := congrArg List.length hEmpty
  simp only [items, pending, queued_append, fates_append, List.length_map, List.length_drop,
    List.length_append, List.length_nil] at hLength
  simp only [pending, List.length_drop] at hFewer
  omega

/- The steps of the worker in a part of a run. -/
def workCount (trace : List (Entry α)) : Nat := trace.countP (fun e => e.op.isWork)

theorem workCount_snoc {trace : List (Entry α)} {e : Entry α} :
    workCount (trace ++ [e]) = workCount trace + if e.op.isWork then 1 else 0 := by
  simp [workCount, List.countP_append, List.countP_singleton]

/-
  One step pays for itself: the worker gets closer to the head of the ring, consumes it,
  or closes the connection.
-/
theorem Stepped.potential {op : Op α} {bound : Nat} (hStep : Stepped f seed s op s' signal)
    (hLive : s.place.stage = .live link) (hNonempty : s.ring.read ≠ s.ring.write)
    (hBound : workCount tail + s.rank ≤ bound + stride * (fates tail).length) :
    signal = .closed link.generation ∨ (s'.place.stage = .live link ∧
        workCount (tail ++ [⟨s, op, signal⟩]) + s'.rank ≤ bound + stride *
              (fates (tail ++ [⟨s, op, signal⟩])).length) := by
  rw [workCount_snoc, fates_snoc, List.length_append, Nat.mul_add]
  cases hOp : op.isWork with
  | false =>
    have hSame := hStep.rank_eq hOp
    refine .inr ⟨by rw [hSame.2, hLive], ?_⟩
    simp only [Bool.false_eq_true, if_false]
    omega
  | true =>
    cases hStep with
    | call hFalse _ | decide hFalse _ => simp [hFalse] at hOp
    | work hWork hWorks =>
      rcases hWorks.stage.of_live hLive with hStays | hClosed
      · refine .inr ⟨hStays, ?_⟩
        simp only [if_true]
        have hRank := rank_lt_stride s'
        rcases rank_work hWork hLive hNonempty with hLess | ⟨n, delivered, rfl⟩ | rfl
        · omega
        · cases delivered <;>
            simp only [fatesBy, List.length_singleton] <;>
            omega
        · rw [StageMoves.closed_stage hWorks.stage hLive] at hStays
          cases hStays
      · exact .inl hClosed

/-
  As long as the connection is not closed, the worker takes fewer than `stride` steps for
  each notification it consumes.
-/
theorem run_progress {front : List (Entry α)} {t : StockWorker α} {m : Nat}
    (hFront : Run f seed front s) (hTail : Transition.Run (step f seed) s tail t)
    (hLive : s.place.stage = .live link) (hPending : m ≤ (pending front).length)
    (hSteps : stride * m ≤ workCount tail) :
    m ≤ (fates tail).length ∨ Shown tail (.closed link.generation) := by
  have hPotential : m ≤ (fates tail).length ∨ Shown tail (.closed link.generation) ∨
      (t.place.stage = .live link ∧ workCount tail + t.rank ≤
          s.rank + stride * (fates tail).length) := by
    clear hSteps
    induction hTail with
    | nil =>
      refine .inr (.inr ⟨hLive, ?_⟩)
      simp [workCount, fates]
    | @snoc tail u v op signal hMiddle hStep ih =>
      rcases ih with hDone | hClosed | ⟨hStays, hBound⟩
      · refine .inl (Nat.le_trans hDone ?_)
        simp [fates_append]
      · exact .inr (.inl hClosed.snoc)
      · by_cases hDone : m ≤ (fates tail).length
        · refine .inl (Nat.le_trans hDone ?_)
          simp [fates_append]
        · refine .inr ?_
          have hNonempty := read_ne_write (hFront.append hMiddle)
              (Nat.lt_of_lt_of_le (Nat.lt_of_not_le hDone) hPending)
          exact ((stepped_of_step hStep).potential hStays hNonempty hBound).imp_left (fun hClosed =>
                  shown_snoc.mpr (.inr hClosed))
  rcases hPotential with hDone | hClosed | ⟨_, hBound⟩
  · exact .inl hDone
  · exact .inr hClosed
  · refine .inl (Nat.le_of_not_lt fun hFewer => ?_)
    have hRank := rank_lt_stride s
    have hProduct : stride * ((fates tail).length + 1) ≤ stride * m := Nat.mul_le_mul_left _ hFewer
    rw [Nat.mul_add] at hProduct
    omega

/-
  The notification ring of a whole run.  What is sent is a subsequence of what was queued,
  on the generation that was current when it was queued and with that link's nonce.  What
  is consumed is accounted for in the order queued.  What is not consumed is intact in its
  slot.  And the worker reaches every queued notification in a bounded number of its own
  steps, unless the connection is closed.
-/
theorem notification_ring (f : Framing α) (seed : Nat) {trace : List (Entry α)} {s : StockWorker α}
    (hRun : Run f seed trace s) :
    (sent trace).Sublist (queued trace) ∧ (∀ link n, Shown trace (.sent link n) →
        n.generation = link.generation ∧ f.nonce n.packet = link.nonce) ∧
      List.Forall₂ (Accounts f seed trace) (((queued trace).take (fates trace).length).map Prod.fst)
        (fates trace) ∧
      (items trace).length ≤ capacity ∧
      (∀ i (h : i < (items trace).length), s.ring.slot (s.ring.read + i) =
          (items trace).get ⟨i, h⟩) ∧
      (∀ front tail mid link m, trace = front ++ tail → Run f seed front mid →
        Transition.Run (step f seed) mid tail s →
        mid.place.stage = .live link →
        m ≤ (items front).length →
        stride * m ≤ workCount tail →
        m ≤ (fates tail).length ∨ Shown tail (.closed link.generation)) := by
  have hOrdered := run_ordered hRun
  have hWindow := run_window hRun
  refine ⟨hOrdered.sent.trans (List.take_sublist _ _), hOrdered.link, (run_settled hRun).fates,
    hWindow.holds.fits, hWindow.holds.slot_eq, ?_⟩
  intro front tail mid link m _ hFront hTail hLive hItems hSteps
  rw [items, List.length_map] at hItems
  exact run_progress hFront hTail hLive hItems hSteps

/- A connection opens and one notification is passed on. -/
def openAndNotify : List (Op Nat) :=
  List.replicate 8 (Op.work Ambient.calm) ++ [Op.notify 501] ++ List.replicate 6 Op.call ++
    List.replicate 6 (Op.work Ambient.calm)

theorem notification_ring_openAndNotify :
    sent (Transition.entriesOf (step Framing.numbered 5) (initial Framing.numbered) openAndNotify) =
      [(⟨501, 1⟩, 1)] ∧
    (sent (Transition.entriesOf (step Framing.numbered 5)
          (initial Framing.numbered) openAndNotify)).Sublist
      (queued (Transition.entriesOf (step Framing.numbered 5)
          (initial Framing.numbered) openAndNotify)) :=
  ⟨by decide +kernel,
    (notification_ring Framing.numbered 5 (Transition.Run.of_isSome (by decide +kernel))).1⟩

/- `notify` loads the generation before a connection is published, and tests the rest after. -/
def notifyEarly : List (Op Nat) :=
  [Op.notify 501] ++ List.replicate 8 (Op.work Ambient.calm) ++ List.replicate 6 Op.call ++
    List.replicate 6 (Op.work Ambient.calm)

/-
  The packet is queued for the connection that is current, which stays live; it is skipped
  because its tag is 0.
-/
theorem skipped_while_live :
    let trace := Transition.entriesOf (step Framing.numbered 5)
        (initial Framing.numbered) notifyEarly
    let s := Transition.lastOf (step Framing.numbered 5) (initial Framing.numbered) notifyEarly
    queued trace = [(⟨501, 0⟩, 1)] ∧ fates trace = [.skipped] ∧ sent trace = [] ∧
      ¬ Shown trace (.closed 1) ∧ ¬ Shown trace (.retiring 1) ∧
      s.place.stage = .live ⟨1, Framing.numbered.nonce 501⟩ := by
  unfold Shown
  exact ⟨by decide +kernel, by decide +kernel, by decide +kernel, by decide +kernel,
    by decide +kernel, rfl⟩

end StockWorker

end Sledge.Native
