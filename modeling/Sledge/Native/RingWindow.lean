import Sledge.Native.Connections

/-
  The notification ring as the worker and `notify` see it.

  The history of a run says what was queued and what was
  consumed.  What lies between is what the ring holds, every
  notification in its slot; the worker holds its head, and a
  `notify` past its room test has room.

  Main results:
    * `StockWorker.run_window`
-/

-----
-- Histories Of The Ring

namespace Sledge.Native.StockWorker

variable {α : Type}

/- What an entry queued, and the generation current then. -/
def queuedBy (e : Entry α) : Option (Notification α × Nat) :=
  match e.out with
  | .queued n => some (n, e.pre.connectionGeneration)
  | _ => none

def queued (trace : List (Entry α)) : List (Notification α × Nat) := trace.filterMap queuedBy

/- What became of a consumed notification. -/
inductive Fate
  | delivered
  | skipped
  | retired (generation : Nat)
deriving Repr, DecidableEq

def fatesBy (e : Entry α) : List Fate :=
  match e.out with
  | .consumed _ true => [.delivered]
  | .consumed _ false => [.skipped]
  | .retired generation count => List.replicate count (.retired generation)
  | _ => []

def fates (trace : List (Entry α)) : List Fate := trace.flatMap fatesBy

/- What an entry sent, and the generation it was sent on. -/
def sentBy (e : Entry α) : Option (Notification α × Nat) :=
  match e.out with
  | .sent link n => some (n, link.generation)
  | _ => none

def sent (trace : List (Entry α)) : List (Notification α × Nat) := trace.filterMap sentBy

/- What was queued and not consumed. -/
def pending (trace : List (Entry α)) : List (Notification α × Nat) :=
  (queued trace).drop (fates trace).length

def items (trace : List (Entry α)) : List (Notification α) := (pending trace).map Prod.fst

variable {trace : List (Entry α)} {e : Entry α}

theorem queued_snoc : queued (trace ++ [e]) = queued trace ++ (queuedBy e).toList := by
  cases h : queuedBy e <;> simp [queued, h]

theorem fates_snoc : fates (trace ++ [e]) = fates trace ++ fatesBy e := by
  simp [fates]

theorem sent_snoc : sent (trace ++ [e]) = sent trace ++ (sentBy e).toList := by
  cases h : sentBy e <;> simp [sent, h]

/- A step of the worker can only consume. -/
theorem pending_snoc_fates (hQueued : queuedBy e = none) :
    pending (trace ++ [e]) = (pending trace).drop (fatesBy e).length := by
  simp [pending, queued_snoc, fates_snoc, hQueued]

/- A step of the compositor thread can only queue. -/
theorem pending_snoc_queued (hCounted : (fates trace).length ≤ (queued trace).length)
    (hFates : fatesBy e = []) : pending (trace ++ [e]) = pending trace ++ (queuedBy e).toList := by
  simp [pending, queued_snoc, fates_snoc, hFates, List.drop_append_of_le_length hCounted]

theorem queuedBy_of_plain (hPlain : e.out.readerPlain = true) :
    queuedBy e = none ∧ fatesBy e = [] ∧ sentBy e = none := by
  cases hOut : e.out <;>
    simp_all [Signal.readerPlain, queuedBy, fatesBy, sentBy]

-----
-- The Window Of Unconsumed Slots

variable {f : Framing α} {seed : Nat}

theorem capacity_dvd : capacity ∣ indexSize := by decide

theorem capacity_lt : capacity < indexSize := by decide

/- What the worker holds of the ring is still at its head. -/
def Reader.Fits (read : Nat) (items : List (Notification α)) : Reader α → Prop
  | .none | .draining _ => True
  | .fetching index => index = read ∧ items ≠ []
  | .holding index n _ => index = read ∧ ∃ rest, items = n :: rest
  | .skipping retired index write =>
    ∃ k m, k ≤ m ∧ m ≤ items.length ∧ index = (read + k) % indexSize ∧
      write = (read + m) % indexSize ∧
      ∀ n ∈ items.take k, n.generation = retired
  | .settled retired index =>
    ∃ k, k ≤ items.length ∧ index = (read + k) % indexSize ∧
      ∀ n ∈ items.take k, n.generation = retired

/- A `notify` past its room test still has room. -/
def Writer.Fits (ring : RingBuffer (Notification α) capacity) (items : List (Notification α)) : Writer α → Prop
  | .none | .asked _ _ | .ready _ _ => True
  | .room _ _ | .admitted _ _ => items.length < capacity
  | .written packet generation =>
    items.length < capacity ∧ ring.slot ring.write = ⟨packet, generation⟩

structure Window (trace : List (Entry α)) (s : StockWorker α) : Prop where
  counted : (fates trace).length ≤ (queued trace).length
  holds : s.ring.Holds indexSize (items trace)
  reader : s.place.reader.Fits s.ring.read (items trace)
  writer : s.caller.writer.Fits s.ring (items trace)

theorem window_initial (f : Framing α) : Window [] (initial f) where
  counted := Nat.le_refl _
  holds :=
    { fits := Nat.zero_le _
      read_lt := show 0 < indexSize by decide
      write_eq := rfl
      slot_eq := fun i hi => absurd hi (Nat.not_lt_zero i) }
  reader := trivial
  writer := trivial

variable {read : Nat} {reader : Reader α} {s s' : StockWorker α} {signal : Signal α}
variable {op : Op α}

theorem Reader.Fits.append {items more : List (Notification α)} (hFits : reader.Fits read items) :
    reader.Fits read (items ++ more) := by
  cases reader with
  | none | draining _ => exact trivial
  | fetching index => exact ⟨hFits.1, by simp [hFits.2]⟩
  | holding index n delivered =>
    rcases hFits with ⟨hIndex, rest, rfl⟩
    exact ⟨hIndex, rest ++ more, rfl⟩
  | skipping retired index write =>
    rcases hFits with ⟨k, m, hkm, hm, hIndex, hWrite, hAll⟩
    refine ⟨k, m, hkm, ?_, hIndex, hWrite, ?_⟩
    · simp only [List.length_append]
      omega
    · rw [List.take_append_of_le_length (by omega)]
      exact hAll
  | settled retired index =>
    rcases hFits with ⟨k, hk, hIndex, hAll⟩
    refine ⟨k, ?_, hIndex, ?_⟩
    · simp only [List.length_append]
      omega
    · rw [List.take_append_of_le_length hk]
      exact hAll

variable {items : List (Notification α)}

/- Room does not shrink when the worker consumes. -/
theorem Writer.Fits.drop {ring ring' : RingBuffer (Notification α) capacity}
    {writer : Writer α} {count : Nat}
    (hFits : writer.Fits ring items) (hRing : ring' = { ring with read := ring'.read }) :
    writer.Fits ring' (items.drop count) := by
  have hWrite : ring'.write = ring.write := by rw [hRing]
  have hSlot : ∀ i, ring'.slot i = ring.slot i := by
    intro i
    rw [hRing]
    rfl
  cases writer with
  | none | asked _ _ | ready _ _ => exact trivial
  | room _ _ | admitted _ _ => exact Nat.lt_of_le_of_lt (by simp) hFits
  | written _ _ =>
    refine ⟨Nat.lt_of_le_of_lt (by simp) hFits.1, ?_⟩
    rw [hWrite, hSlot]
    exact hFits.2

/- What a move of the reader consumes is what it accounts for. -/
theorem ReaderMoves.window {reader' : Reader α} (op : Op α)
    (hMoves : ReaderMoves f s reader signal reader' read) (hHolds : s.ring.Holds indexSize items)
    (hFits : reader.Fits s.ring.read items) :
    queuedBy ⟨s, op, signal⟩ = none ∧ (fatesBy ⟨s, op, signal⟩).length ≤ items.length ∧ read =
        (s.ring.read + (fatesBy ⟨s, op, signal⟩).length) % indexSize ∧
      reader'.Fits read (items.drop (fatesBy ⟨s, op, signal⟩).length) := by
  have hRead : s.ring.read % indexSize = s.ring.read := Nat.mod_eq_of_lt hHolds.read_lt
  cases hMoves with
  | stay hPlain =>
    have hNothing := queuedBy_of_plain (e := ⟨s, op, signal⟩) hPlain
    simp [hNothing, hRead, Reader.Fits]
  | fetch hNonempty =>
    have hItems : items ≠ [] := fun hNil =>
      hNonempty ((hHolds.read_eq_write_iff capacity_lt).mpr hNil)
    simp [queuedBy, fatesBy, hRead, Reader.Fits, hItems]
  | copy =>
    rcases hFits with ⟨rfl, hItems⟩
    rcases List.exists_cons_of_ne_nil hItems with ⟨n, rest, rfl⟩
    have hSlot := hHolds.slot_eq 0 (by simp)
    simp only [Nat.add_zero, List.get_eq_getElem, List.getElem_cons_zero] at hSlot
    simp [queuedBy, fatesBy, hRead, Reader.Fits, hSlot]
  | send _ _ _ | skip _ _ =>
    rcases hFits with ⟨rfl, hItems⟩
    simp [queuedBy, fatesBy, hRead, Reader.Fits, hItems]
  | @consume _ n delivered =>
    rcases hFits with ⟨rfl, rest, rfl⟩
    cases delivered <;>
      simp [queuedBy, fatesBy, Reader.Fits]
  | scan =>
    simp only [queuedBy, fatesBy, List.length_nil, Nat.zero_le, Nat.add_zero, hRead, List.drop_zero,
      true_and]
    exact ⟨0, items.length, Nat.zero_le _, Nat.le_refl _, hRead.symm, hHolds.write_eq, by simp⟩
  | @pass retired index write hNe hGeneration =>
    rcases hFits with ⟨k, m, hkm, hm, rfl, rfl, hAll⟩
    have hLt : k < m := by
      rcases Nat.lt_or_eq_of_le hkm with hLt | rfl
      · exact hLt
      · exact absurd rfl hNe
    have hSlot := hHolds.slot_eq k (by omega)
    rw [RingBuffer.slot_mod capacity_dvd, hSlot] at hGeneration
    simp only [queuedBy, fatesBy, List.length_nil, Nat.zero_le, Nat.add_zero, hRead, List.drop_zero,
      true_and]
    refine ⟨k + 1, m, hLt, hm, by simp [Nat.add_assoc], rfl, ?_⟩
    intro n hMem
    rw [List.take_succ_eq_append_getElem (by omega),
      List.mem_append, List.mem_singleton] at hMem
    rcases hMem with hOld | rfl
    · exact hAll n hOld
    · exact hGeneration
  | settled =>
    rcases hFits with ⟨k, m, hkm, hm, hIndex, _, hAll⟩
    simp only [queuedBy, fatesBy, List.length_nil, Nat.zero_le, Nat.add_zero, hRead, List.drop_zero,
      true_and]
    exact ⟨k, by omega, hIndex, hAll⟩
  | retire =>
    rcases hFits with ⟨k, hk, rfl, _⟩
    have hFull := hHolds.fits
    have hSize := capacity_lt
    rw [RingBuffer.offset_eq hHolds.read_lt (by omega)]
    simp [queuedBy, fatesBy, Reader.Fits, hk]
  | _ => simp [queuedBy, fatesBy, hRead, Reader.Fits]

theorem ReaderMoves.not_queued {reader' : Reader α}
    (hMoves : ReaderMoves f s reader signal reader' read) (n : Notification α) :
    signal ≠ .queued n := by
  rintro rfl
  cases hMoves with
  | stay hPlain => cases hPlain

theorem Works.window (hWorks : Works f seed s s' signal) (hBefore : Window trace s) :
    Window (trace ++ [⟨s, op, signal⟩]) s' := by
  rcases hWorks.reader.window op hBefore.holds hBefore.reader with ⟨hQueued, hCount, hRead, hFits⟩
  have hItems : items (trace ++ [⟨s, op, signal⟩]) = (items trace).drop
      (fatesBy ⟨s, op, signal⟩).length := by
    simp only [items, pending_snoc_fates hQueued, List.map_drop]
  refine ⟨?_, ?_, ?_, ?_⟩
  · have hCounted := hBefore.counted
    simp only [items, pending, List.length_map, List.length_drop] at hCount
    simp only [queued_snoc, fates_snoc, hQueued,
      Option.toList_none, List.append_nil, List.length_append]
    omega
  · rw [hItems, hWorks.kept.ring, hRead]
    exact hBefore.holds.consume capacity_dvd hCount
  · rw [hItems]
    exact hFits
  · rw [hItems, hWorks.kept.caller]
    exact hBefore.writer.drop hWorks.kept.ring

theorem Calls.fatesBy_eq (op : Op α) (hCalls : Calls f s s' signal) :
    fatesBy ⟨s, op, signal⟩ = [] ∧ sentBy ⟨s, op, signal⟩ = none := by
  have hWriter := hCalls.writer
  generalize s.caller.writer = writer at hWriter
  generalize s'.caller.writer = writer' at hWriter
  generalize s'.ring = ring at hWriter
  cases hWriter with
  | stay hPlain =>
    have hNothing := queuedBy_of_plain (e := ⟨s, op, signal⟩) hPlain
    exact hNothing.2
  | _ => exact ⟨rfl, rfl⟩

/- What a move of the writer queues is what the ring gains. -/
theorem WriterMoves.window {writer writer' : Writer α} {ring : RingBuffer (Notification α) capacity}
    (op : Op α)
    (hMoves : WriterMoves f s writer signal writer' ring) (hHolds : s.ring.Holds indexSize items)
    (hFits : writer.Fits s.ring items) :
    ring.read = s.ring.read ∧ ring.Holds indexSize (items ++
          (queuedBy ⟨s, op, signal⟩).toList.map Prod.fst) ∧
      writer'.Fits ring (items ++ (queuedBy ⟨s, op, signal⟩).toList.map Prod.fst) := by
  cases hMoves with
  | stay hPlain =>
    have hNothing := queuedBy_of_plain (e := ⟨s, op, signal⟩) hPlain
    rw [hNothing.1]
    simp [Writer.Fits, hHolds]
  | room hFull =>
    rw [hHolds.size_eq capacity_lt] at hFull
    simp only [queuedBy, Option.toList_none, List.map_nil, List.append_nil]
    exact ⟨trivial, hHolds, Nat.lt_of_le_of_ne hHolds.fits hFull⟩
  | matched _ =>
    simp only [queuedBy, Option.toList_none, List.map_nil, List.append_nil]
    exact ⟨trivial, hHolds, hFits⟩
  | write =>
    simp only [queuedBy, Option.toList_none, List.map_nil, List.append_nil]
    refine ⟨rfl, hHolds.put capacity_dvd hFits _, hFits, ?_⟩
    exact s.ring.slot_put_self s.ring.write _
  | publish => exact ⟨rfl, hHolds.publish capacity_dvd hFits.1 hFits.2, trivial⟩
  | _ =>
    simp only [queuedBy, Option.toList_none, List.map_nil, List.append_nil]
    exact ⟨trivial, hHolds, trivial⟩

theorem Calls.window (hCalls : Calls f s s' signal) (hBefore : Window trace s) :
    Window (trace ++ [⟨s, op, signal⟩]) s' := by
  have hNone := (hCalls.fatesBy_eq op).1
  rcases hCalls.writer.window op hBefore.holds hBefore.writer with ⟨hRead, hHolds, hFits⟩
  have hItems : items (trace ++ [⟨s, op, signal⟩]) = items trace ++
      (queuedBy ⟨s, op, signal⟩).toList.map Prod.fst := by
    simp only [items, pending_snoc_queued hBefore.counted hNone, List.map_append]
  refine ⟨?_, ?_, ?_, ?_⟩
  · have hCounted := hBefore.counted
    simp only [queued_snoc, fates_snoc, hNone, List.append_nil, List.length_append]
    omega
  · rw [hItems]
    exact hHolds
  · rw [hItems, hCalls.place, hRead]
    exact hBefore.reader.append
  · rw [hItems]
    exact hFits

theorem Stepped.window (hStep : Stepped f seed s op s' signal) (hBefore : Window trace s) :
    Window (trace ++ [⟨s, op, signal⟩]) s' := by
  cases hStep with
  | work _ hWorks => exact hWorks.window hBefore
  | call _ hCalls => exact hCalls.window hBefore
  | decide _ _ =>
    have hItems : ∀ e : Entry α, queuedBy e = none → fatesBy e = [] →
        items (trace ++ [e]) = items trace := by
      intro e hQueued hFates
      simp [items, pending_snoc_fates hQueued, hFates]
    refine ⟨?_, ?_, ?_, ?_⟩
    · simpa [queued_snoc, fates_snoc, queuedBy, fatesBy] using hBefore.counted
    · rw [hItems _ rfl rfl]
      exact hBefore.holds
    · rw [hItems _ rfl rfl]
      exact hBefore.reader
    · rw [hItems _ rfl rfl]
      exact hBefore.writer

theorem run_window (hRun : Run f seed trace s) : Window trace s := by
  induction hRun with
  | nil => exact window_initial f
  | snoc _ hStep ih => exact (stepped_of_step hStep).window ih

end Sledge.Native.StockWorker
