import Sledge.Broker.Lifecycle
import Sledge.Broker.Output

/-
  What the teardown of a proxy leaves on its virtual keyboard.

  A call that fails in the middle of a pump has put nothing
  out, so the keys the virtual keyboard holds are always the
  committed output.  The releases of a teardown go through the
  same bounded frame as any output: with more keys than fit
  in it, no frame is emitted at all.

  Main results:
    * `Session.handle_unsaid`
    * `Session.bypass_frames`
    * `Session.teardown_iff`
-/

-----
-- Calls That Put Nothing Out

namespace Sledge.Broker

open Linux (IoError)
open Ordered

theorem KeyState.apply_committed (s : KeyState) (event : RawEvent) (decision : Operation) :
    (s.apply event decision).1.committedOutput = s.committedOutput ∧
      ((s.apply event decision).2 = [] ∨ (s.apply event decision).2 = [event]) := by
  unfold apply release press
  split_ifs <;> simp

theorem KeyState.resync_committed (s : KeyState) (keys : Finset Nat) :
    (s.resync keys).1.committedOutput = s.committedOutput := by
  simp only [resync, discover_spec]

theorem isReport_of_isKey {event : RawEvent} (hKey : event.isKey = true) : event.isReport = false := by
  simp_all [RawEvent.isKey, RawEvent.isReport]

namespace Session

variable {C : Type} {socket : Socket C} {s s' t : Session C} {i : Incoming}
variable {accepted : Except IoError Unit} {event : RawEvent} {result : Except IoError Unit}

/- The virtual keyboard was told nothing between two states. -/
structure Unsaid (s s' : Session C) : Prop where
  frames : frames s'.log = frames s.log
  committed : s'.proxy.state.committedOutput = s.proxy.state.committedOutput
  grabbed : s'.proxy.grabbed = s.proxy.grabbed

theorem Unsaid.refl (s : Session C) : s.Unsaid s := ⟨rfl, rfl, rfl⟩

theorem Unsaid.trans (hFirst : s.Unsaid t) (hSecond : t.Unsaid s') : s.Unsaid s' :=
  ⟨hSecond.frames.trans hFirst.frames, hSecond.committed.trans hFirst.committed,
    hSecond.grabbed.trans hFirst.grabbed⟩

theorem Conversed.unsaid (hConversed : s.Conversed s') : s.Unsaid s' := by
  rcases hConversed.log with ⟨talk, hLog, hTalk⟩
  refine ⟨?_, ?_, ?_⟩
  · have hSilent := frames_talk hTalk []
    rw [List.append_nil] at hSilent
    rw [hLog, frames_append, hSilent]
    exact List.append_nil _
  · rw [hConversed.proxy]
  · rw [hConversed.proxy]

/- Only a report that is accepted ends a frame. -/
theorem emitEvent_unsaid (hEmit : s.emitEvent accepted event = (s', result))
    (hQuiet : event.isReport = false ∨ result ≠ .ok ()) : s.Unsaid s' := by
  unfold emitEvent at hEmit
  split_ifs at hEmit with hReport
  · split at hEmit
    · cases hEmit
      exact Unsaid.refl s
    · cases hEmit
      simp [hReport] at hQuiet
  · cases hEmit
    exact Unsaid.refl s
  · cases hEmit
    exact ⟨by simp [record, Broker.frames, Record.emitted?], rfl, rfl⟩
  · cases hEmit
    exact Unsaid.refl s

/- Events before the end of a frame, and one event that fails. -/
theorem emit_unsaid {events : List RawEvent} (hEmit : emit accepted s events = (s', result))
    (hQuiet : (∀ e ∈ events, e.isReport = false) ∨ (events.length = 1 ∧ result ≠ .ok ())) :
    s.Unsaid s' := by
  induction events generalizing s with
  | nil =>
    cases hEmit
    exact .refl _
  | cons first rest ih =>
    unfold emit at hEmit
    split at hEmit
    · rename_i mid error hFirst
      cases hEmit
      exact emitEvent_unsaid hFirst (.inr (by simp))
    · rename_i mid hFirst
      rcases hQuiet with hQuiet | ⟨hSingle, hFailed⟩
      · rw [List.forall_mem_cons] at hQuiet
        exact (emitEvent_unsaid hFirst (.inl hQuiet.1)).trans (ih hEmit (.inl hQuiet.2))
      · obtain rfl : rest = [] := by simpa using hSingle
        cases hEmit
        exact absurd rfl hFailed

theorem resynchronise_unsaid {error : IoError} (hFailed : s.resynchronise socket i = (s', .error error)) :
    s.Unsaid s' := by
  unfold resynchronise at hFailed
  split at hFailed
  · cases hFailed
    exact .refl s
  rename_i keys hKeys
  split at hFailed
  · cases hFailed
    exact .refl s
  rename_i aged hAged
  rcases Option.map_eq_some_iff.mp hAged with ⟨epoch, _, rfl⟩
  dsimp only at hFailed
  have hResynced : s.Unsaid
      { s with proxy := { s.proxy with epoch := epoch, state := (s.proxy.state.resync keys).1 } } :=
    ⟨rfl, KeyState.resync_committed _ _, rfl⟩
  split at hFailed
  · rename_i reset error hReset
    cases hFailed
    exact hResynced.trans (control_conversed hReset).unsaid
  rename_i reset hReset
  have hAsked := hResynced.trans (control_conversed hReset).unsaid
  split at hFailed
  · rename_i told error hTold
    cases hFailed
    exact hAsked.trans (snapshotKeys_conversed hTold).unsaid
  rename_i told hTold
  have hSnapshot := hAsked.trans (snapshotKeys_conversed hTold).unsaid
  have hKeysOnly (e : RawEvent) (hMem : e ∈ (s.proxy.state.resync keys).2) : e.isReport = false :=
    isReport_of_isKey (resync_isKey hMem)
  split at hFailed
  · rename_i played error hPlayed
    cases hFailed
    exact hSnapshot.trans (emit_unsaid hPlayed (.inl hKeysOnly))
  rename_i played hPlayed
  exact (hSnapshot.trans (emit_unsaid hPlayed (.inl hKeysOnly))).trans
    (emit_unsaid hFailed (.inr ⟨rfl, by simp⟩))

theorem settle_unsaid {error : IoError} (hFailed : s.settle socket i = (s', .error error)) :
    s.Unsaid s' := by
  unfold settle at hFailed
  split at hFailed
  · cases hFailed
    exact Unsaid.refl s
  rename_i numbered hNumbered
  split at hFailed
  · rename_i asked error hAsked
    cases hFailed
    exact (advanceSequence_conversed hNumbered).unsaid.trans (decide_conversed hAsked).unsaid
  rename_i asked decision hAsked
  have hDecided := (advanceSequence_conversed hNumbered).unsaid.trans (decide_conversed hAsked).unsaid
  dsimp only at hFailed
  rcases KeyState.apply_committed (asked.rollback i.raw).proxy.state i.raw decision with
    ⟨hCommitted, hOutput⟩
  have hRolled : asked.Unsaid (asked.rollback i.raw) := by
    unfold rollback
    split_ifs
    · exact ⟨rfl, rfl, rfl⟩
    · exact Unsaid.refl asked
  have hEmitted := emit_unsaid hFailed (by
    rcases hOutput with hNone | hSingle
    · exact .inl (by simp [hNone])
    · exact .inr ⟨by simp [hSingle], by simp⟩)
  refine (hDecided.trans hRolled).trans (Unsaid.trans ?_ hEmitted)
  exact ⟨by simp [record, Broker.frames, Record.emitted?], hCommitted, rfl⟩

/- A call that fails has put nothing out. -/
theorem handle_unsaid {error : IoError} (hFailed : s.handle socket i = (s', .error error)) :
    s.Unsaid s' := by
  unfold handle at hFailed
  split at hFailed
  · cases hFailed
    exact .refl s
  split_ifs at hFailed
  · exact resynchronise_unsaid hFailed
  · exact settle_unsaid hFailed

-----
-- The Virtual Keyboard Of A Proxy

/- The keys the virtual keyboard holds. -/
def device (s : Session C) : Finset Nat := held ∅ (frames s.log).flatten

/- The keys a teardown releases. -/
def owned (s : Session C) : Finset Nat := s.proxy.state.output ∪ s.proxy.state.committedOutput

theorem Unsaid.device (hUnsaid : s.Unsaid s') : s'.device = s.device := by
  rw [Session.device, hUnsaid.frames, Session.device]

/- The keyboard holds what was committed, and the waiting frame leads on from it. -/
structure OnRecord (s : Session C) : Prop where
  tracks : s.proxy.Tracks
  device : s.device = s.proxy.state.committedOutput

theorem OnRecord.handle (hRecord : s.OnRecord) (hOk : s.handle socket i = (s', .ok ())) :
    s'.OnRecord := by
  rcases handle_handles hOk with ⟨log, hLog, hHandles⟩
  rcases hHandles.tracks hRecord.tracks with ⟨hTracks, hTold⟩
  refine ⟨hTracks, ?_⟩
  rw [Session.device, hLog, frames_append, List.flatten_append, held_append]
  exact (congrArg (held · _) hRecord.device).trans hTold.reached

/- Wherever the events of a pump stop, the device holds the committed output. -/
theorem OnRecord.handleAll {events : List Incoming} (hRecord : s.OnRecord)
    (hHandled : s.handleAll socket events = (s', result)) :
    s'.device = s'.proxy.state.committedOutput ∧ (result = .ok () → s'.OnRecord) := by
  induction events generalizing s with
  | nil =>
    cases hHandled
    exact ⟨hRecord.device, fun _ => hRecord⟩
  | cons i rest ih =>
    unfold Session.handleAll at hHandled
    split at hHandled
    · rename_i failed error hFailed
      cases hHandled
      have hUnsaid := handle_unsaid hFailed
      exact ⟨by rw [hUnsaid.device, hUnsaid.committed, hRecord.device], by simp⟩
    · rename_i next hNext
      exact ih (hRecord.handle hNext) hHandled

/- A proxy that was not torn down is on record. -/
def Kept (s : Session C) : Prop := s.proxy.grabbed = true → s.OnRecord

theorem Kept.pumpInner {ready : Except IoError Unit} {fetched : Except IoError (List Incoming)}
    (hKept : s.Kept) (hPumped : s.pumpInner socket ready fetched = (s', result)) :
    (s'.proxy.grabbed = true → s'.device = s'.proxy.state.committedOutput) ∧
      (result = .ok () → s'.OnRecord) := by
  have hIdle : s.proxy.grabbed = true → s.device = s.proxy.state.committedOutput := fun hGrabbed =>
    (hKept hGrabbed).device
  unfold Session.pumpInner at hPumped
  split at hPumped
  · cases hPumped
    exact ⟨hIdle, by simp⟩
  by_cases hGrabbed : s.proxy.grabbed = true
  swap
  · rw [if_pos hGrabbed] at hPumped
    cases hPumped
    exact ⟨hIdle, by simp⟩
  rw [if_neg (not_not_intro hGrabbed)] at hPumped
  split at hPumped
  · cases hPumped
    exact ⟨hIdle, by simp⟩
  split_ifs at hPumped
  · cases hPumped
    exact ⟨hIdle, by simp⟩
  · rcases (hKept hGrabbed).handleAll hPumped with ⟨hDevice, hOk⟩
    exact ⟨fun _ => hDevice, hOk⟩

/- The calls of one pump: its checks, the events it fetches, and how its cleanup fares. -/
structure Pump where
  ready : Except IoError Unit
  fetched : Except IoError (List Incoming)
  cleanup : Except IoError Unit

def pumps (socket : Socket C) (s : Session C) (ops : List Pump) : Session C :=
  ops.foldl (fun s op => (s.pump socket op.ready op.fetched op.cleanup).1) s

theorem Kept.pumps (hKept : s.Kept) (ops : List Pump) : (s.pumps socket ops).Kept := by
  induction ops generalizing s with
  | nil => exact hKept
  | cons op ops ih =>
    refine ih ?_
    dsimp only
    unfold pump
    split
    · rename_i next hPumped
      exact fun _ => (hKept.pumpInner hPumped).2 rfl
    · intro hGrabbed
      cases hGrabbed

-----
-- The Last Frame

theorem held_releases (keys : Finset Nat) (codes : List Nat) :
    held keys (codes.map (fun code => key code 0)) = keys \ codes.toFinset := by
  induction codes generalizing keys with
  | nil => simp [held]
  | cons code codes ih =>
    refine (ih (keys.erase code)).trans ?_
    ext c
    simp only [Finset.mem_sdiff, Finset.mem_erase, List.toFinset_cons, Finset.mem_insert]
    tauto

theorem emitEvent_key (hKey : event.isKey = true) : s.emitEvent accepted event =
    if 256 ≤ s.proxy.pending.length then (s, .error (denied "output frame exceeds bound"))
    else
      ({ s with proxy := { s.proxy with pending := s.proxy.pending ++ [event] } }.record (.queued event),
        .ok ()) := by
  have hType : event.eventType = 1 := by simpa [RawEvent.isKey] using hKey
  simp [emitEvent, isReport_of_isKey hKey, hType]

/- Key events fill a frame up to its bound, and fail beyond it. -/
theorem emit_keys {events : List RawEvent} (hKeys : ∀ e ∈ events, e.isKey = true)
    (hRoom : s.proxy.pending.length ≤ 256) :
    if s.proxy.pending.length + events.length ≤ 256 then
      ∃ s', emit accepted s events = (s', .ok ()) ∧
        s'.proxy.pending = s.proxy.pending ++ events ∧ s.Unsaid s'
    else ∃ s' error, emit accepted s events = (s', .error error) ∧ s.Unsaid s' := by
  induction events generalizing s with
  | nil =>
    rw [List.length_nil, if_pos (by omega)]
    exact ⟨s, rfl, (List.append_nil _).symm, .refl s⟩
  | cons event rest ih =>
    rw [List.forall_mem_cons] at hKeys
    rw [List.length_cons, emit, emitEvent_key hKeys.1]
    by_cases hFull : 256 ≤ s.proxy.pending.length
    · rw [if_pos hFull, if_neg (by omega)]
      exact ⟨s, _, rfl, .refl s⟩
    · rw [if_neg hFull]
      let queued : Session C :=
        { s with proxy := { s.proxy with pending := s.proxy.pending ++ [event] } }.record (.queued event)
      have hQueued : s.Unsaid queued := ⟨by simp [queued, record, Broker.frames, Record.emitted?], rfl, rfl⟩
      have hLength : queued.proxy.pending.length = s.proxy.pending.length + 1 := by
        simp [queued, record]
      have hRest := ih hKeys.2 (show queued.proxy.pending.length ≤ 256 by omega)
      rw [hLength] at hRest
      split_ifs at hRest ⊢ with hFits hFits'
      · rcases hRest with ⟨s', hEmit, hPending, hUnsaid⟩
        refine ⟨s', hEmit, ?_, hQueued.trans hUnsaid⟩
        rw [hPending, List.append_cons]
        rfl
      · omega
      · omega
      · rcases hRest with ⟨s', error, hEmit, hUnsaid⟩
        exact ⟨s', error, hEmit, hQueued.trans hUnsaid⟩

theorem emit_append {events rest : List RawEvent} : emit accepted s (events ++ rest) =
    match emit accepted s events with
    | (s', .error error) => (s', .error error)
    | (s', .ok ()) => emit accepted s' rest := by
  induction events generalizing s with
  | nil => rfl
  | cons event events ih =>
    rw [List.cons_append, emit, emit]
    cases hFirst : s.emitEvent accepted event with
    | mk next outcome =>
      cases outcome with
      | error error => rfl
      | ok _ => exact ih

/- The frame a teardown emits, if its releases fit into one. -/
theorem bypass_frames (s : Session C) : frames (s.bypass (.ok ())).log = frames s.log ++
      if s.owned.card ≤ 256 then [(ascending s.owned).map (fun code => key code 0)] else [] := by
  have hCard : (ascending s.owned).length = s.owned.card := by
    rw [← List.toFinset_card_of_nodup nodup_ascending]
    exact congrArg Finset.card (Finset.ext (by simp))
  let cleared : Session C := { s with proxy := { s.proxy with pending := [], state := .fresh } }
  have hKeys (e : RawEvent) (hMem : e ∈ (ascending s.owned).map (fun code => key code 0)) :
      e.isKey = true := by
    rcases List.mem_map.mp hMem with ⟨code, _, rfl⟩
    rfl
  have hEmit := @emit_keys C cleared (.ok ()) _ hKeys (Nat.zero_le 256)
  simp only [cleared, List.length_nil, List.length_map, Nat.zero_add, hCard] at hEmit
  unfold bypass KeyState.releaseAll
  dsimp only
  rw [emit_append]
  split_ifs at hEmit ⊢ with hFits
  · rcases hEmit with ⟨s', hEmit, hPending, hUnsaid⟩
    rw [owned] at hEmit hPending ⊢
    rw [hEmit]
    change Broker.frames (s'.log ++ [.emitted s'.proxy.pending]) = _
    rw [frames_append, hUnsaid.frames, hPending]
    rfl
  · rcases hEmit with ⟨s', error, hEmit, hUnsaid⟩
    rw [owned] at hEmit
    rw [hEmit]
    exact hUnsaid.frames.trans (List.append_nil _).symm

/-
  A teardown that the virtual keyboard accepts ends in a frame that leaves no key held iff
  the releases fit into one frame and name every held key, which they do while the proxy
  was not torn down before.
-/
theorem teardown_iff (hStarts : Starts s.proxy) (hLog : s.log = []) (ops : List Pump)
    (ready : Except IoError Unit) (fetched : Except IoError (List Incoming)) :
    let t := ((s.pumps socket ops).pumpInner socket ready fetched).1
    let ended := t.bypass (.ok ())
    (t.proxy.grabbed = true → t.device ⊆ t.owned) ∧
    (((∃ frame, frames ended.log = frames t.log ++ [frame]) ∧ ended.device = ∅) ↔
      t.owned.card ≤ 256 ∧ t.device ⊆ t.owned) := by
  intro t ended
  refine ⟨?_, ?_⟩
  · have hStart : s.Kept := by
      refine fun _ => ⟨hStarts.tracks, ?_⟩
      rw [Session.device, hLog, hStarts.state]
      rfl
    have hPumped : (s.pumps socket ops).pumpInner socket ready fetched = (t, _) := (Prod.mk.eta).symm
    intro hGrabbed
    rw [((hStart.pumps ops).pumpInner hPumped).1 hGrabbed]
    exact Finset.subset_union_right
  · have hFrames := bypass_frames t
    have hDevice : t.owned.card ≤ 256 → ended.device = t.device \ t.owned := by
      intro hFits
      rw [if_pos hFits] at hFrames
      rw [Session.device, hFrames, List.flatten_append, held_append, List.flatten_singleton,
        held_releases]
      exact congrArg (t.device \ ·) (Finset.ext (by simp))
    constructor
    · rintro ⟨⟨frame, hFrame⟩, hEmpty⟩
      have hFits : t.owned.card ≤ 256 := by
        by_contra hMany
        rw [if_neg hMany, List.append_nil] at hFrames
        rw [hFrames] at hFrame
        simp at hFrame
      rw [hDevice hFits] at hEmpty
      exact ⟨hFits, Finset.sdiff_eq_empty_iff_subset.mp hEmpty⟩
    · rintro ⟨hFits, hSubset⟩
      rw [if_pos hFits] at hFrames
      exact ⟨⟨_, hFrames⟩, (hDevice hFits).trans (Finset.sdiff_eq_empty_iff_subset.mpr hSubset)⟩

/- A pump that fetches presses and the report that ends their frame. -/
def pressed (codes : List Nat) : Pump where
  ready := .ok ()
  fetched := .ok (codes.map (fun code => .plain (key code 1) ∅) ++ [.plain .default ∅])
  cleanup := .ok ()

/- An active proxy whose client passes everything. -/
def attached : Session (List Operation) := ⟨Service.activeProxy 1, [], []⟩

theorem teardown_iff_oneKey :
    let t := ((attached.pumps scripted [pressed [30]]).pumpInner scripted (.ok ()) (.ok [])).1
    t.device = {30} ∧ (t.bypass (.ok ())).device = ∅ := by
  refine ⟨by decide +kernel, ?_⟩
  exact ((teardown_iff ⟨rfl, rfl⟩ rfl [pressed [30]] (.ok ()) (.ok [])).2.mpr
    ⟨by decide +kernel, by decide +kernel⟩).2

/- With 257 keys pressed over two frames, the releases do not fit into one. -/
def crowded : List Pump := [pressed (List.range' 1 129), pressed (List.range' 130 128)]

theorem keys_left_held :
    let t := attached.pumps scripted crowded
    let ended := t.bypass (.ok ())
    frames ended.log = frames t.log ∧ ended.device.card = 257 := by
  have hPressed : (attached.pumps scripted crowded).proxy.grabbed = true ∧
      (attached.pumps scripted crowded).proxy.state.committedOutput.card = 257 := by
    decide +kernel
  have hStart : attached.Kept := fun _ => ⟨Starts.tracks ⟨rfl, rfl⟩, rfl⟩
  have hKept : (attached.pumps scripted crowded).Kept := hStart.pumps crowded
  generalize attached.pumps scripted crowded = t at hPressed hKept
  have hMany : ¬ t.owned.card ≤ 256 := by
    have hSubset : t.proxy.state.committedOutput ⊆ t.owned := Finset.subset_union_right
    have hCommitted := Finset.card_le_card hSubset
    omega
  have hFrames := bypass_frames t
  rw [if_neg hMany, List.append_nil] at hFrames
  refine ⟨hFrames, ?_⟩
  rw [Session.device, hFrames]
  exact (congrArg Finset.card (hKept hPressed.1).device).trans hPressed.2

end Session

end Sledge.Broker
