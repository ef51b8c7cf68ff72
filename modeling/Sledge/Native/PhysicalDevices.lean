import Mathlib.Data.List.Pairwise
import Sledge.Native.Calls

/-
  The registry of physical keyboards
  (`native/hyprland/physical_devices.hpp`).

  An attached keyboard has a generation that is never used
  again and an injective translation of its raw codes, so a
  raw press is one press of one key.  A null identity marks
  a free slot.

  Main results:
    * `translates_iff`
    * `PhysicalDevices.event_cases`
    * `PhysicalDevices.holds_press`
-/

-----
-- Key Events

namespace Sledge.Native

namespace Event

/- The event of a key of a keyboard. -/
def ofKey (id : Nat) (key : Key) (state : State) : Event where
  device := id
  key := key.val
  state := state

@[simp]
theorem device_ofKey (id : Nat) (key : Key) (state : State) : (ofKey id key state).device = id :=
  rfl

@[simp]
theorem state_ofKey (id : Nat) (key : Key) (state : State) : (ofKey id key state).state = state :=
  rfl

@[simp]
theorem key?_ofKey (id : Nat) (key : Key) (state : State) :
    (ofKey id key state).key? = some key := by
  simp [ofKey, key?]

theorem concerns_ofKey (id : Nat) (key : Key) (state : State) (id' : Nat) (key' : Key) :
    (ofKey id key state).concerns id' key' = true ↔ id' = id ∧ key' = key := by
  simp only [concerns, key?_ofKey, Option.some.injEq, Bool.and_eq_true, decide_eq_true_eq]
  constructor
  · intro h
    exact ⟨h.1.1.symm, h.1.2.symm⟩
  · intro h
    exact ⟨⟨h.1.symm, h.2.symm⟩, rfl⟩

theorem concerns_ofKey_self (id : Nat) (key : Key) (state : State) :
    (ofKey id key state).concerns id key = true :=
  (concerns_ofKey ..).mpr ⟨rfl, rfl⟩

end Event

-----
-- Translations

/- The translation of a raw code without a key. -/
def unmapped : Nat := keyCount

/- The check of `attach`; `seen` are the keys met so far. -/
def scanTranslation (seen : List Nat) : List Nat → Bool
  | [] => true
  | key :: rest =>
    if key = unmapped then scanTranslation seen rest
    else if key ≥ keyCount ∨ key ∈ seen then false
    else scanTranslation (key :: seen) rest

def translates (translation : Key → Nat) : Bool :=
  scanTranslation [] ((List.finRange keyCount).map translation)

/- Raw codes go to keys, and no two to the same one. -/
structure Translates (translation : Key → Nat) : Prop where
  bounded : ∀ raw, translation raw ≠ unmapped → translation raw < keyCount
  injective : ∀ raw raw', raw ≠ raw' → translation raw = translation raw' →
      translation raw = unmapped

theorem scanTranslation_iff (seen keys : List Nat) :
    scanTranslation seen keys = true ↔ (∀ key ∈ keys,
        key ≠ unmapped → key < keyCount ∧ key ∉ seen) ∧
      keys.Pairwise (fun a b => a = b → a = unmapped) := by
  induction keys generalizing seen with
  | nil => simp [scanTranslation]
  | cons key rest ih =>
    rw [scanTranslation]
    by_cases hUnmapped : key = unmapped
    · simp [hUnmapped, ih]
    · by_cases hBad : key ≥ keyCount ∨ key ∈ seen
      · simp only [hUnmapped, hBad, if_true, if_false, Bool.false_eq_true, false_iff]
        intro h
        have hHead := h.1 key (by simp) hUnmapped
        rcases hBad with hLarge | hSeen
        · omega
        · exact hHead.2 hSeen
      · rw [if_neg hUnmapped, if_neg hBad, ih]
        simp only [List.mem_cons, List.pairwise_cons, not_or]
        push Not at hBad
        constructor
        · intro h
          refine ⟨?_, ?_, h.2⟩
          · intro key' hMem hMapped
            rcases hMem with rfl | hMem
            · exact hBad
            · have hKey := h.1 key' hMem hMapped
              exact ⟨hKey.1, hKey.2.2⟩
          · intro key' hMem hSame
            by_contra hMapped
            have hKey := h.1 key' hMem (hSame ▸ hMapped)
            exact hKey.2.1 hSame.symm
        · intro h
          refine ⟨?_, h.2.2⟩
          intro key' hMem hMapped
          have hKey := h.1 key' (.inr hMem) hMapped
          refine ⟨hKey.1, ?_, hKey.2⟩
          intro hSame
          exact hUnmapped (h.2.1 key' hMem hSame.symm)

theorem translates_iff (translation : Key → Nat) :
    translates translation = true ↔ Translates translation := by
  unfold translates
  rw [scanTranslation_iff, List.pairwise_map]
  constructor
  · intro h
    refine ⟨?_, ?_⟩
    · intro raw hMapped
      exact (h.1 _ (by simp) hMapped).1
    · intro raw raw' hDifferent hSame
      have hSymm : Std.Symm (fun a b : Key =>
            translation a = translation b → translation a = unmapped) := by
        refine ⟨?_⟩
        intro a b hAB hBA
        rw [hBA, hAB hBA.symm]
      exact h.2.forall (List.mem_finRange raw) (List.mem_finRange raw') hDifferent hSame
  · intro h
    refine ⟨?_, ?_⟩
    · intro key hMem hMapped
      rcases List.mem_map.mp hMem with ⟨raw, _, rfl⟩
      exact ⟨h.bounded raw hMapped, by simp⟩
    · refine (List.nodup_finRange keyCount).imp ?_
      intro raw raw' hDifferent
      exact h.injective raw raw' hDifferent

-----
-- Registered Keyboards

structure PhysicalDevice where
  identity : Nat
  generation : Nat
  physical : Key → Nat
  held : Key → Bool

namespace PhysicalDevice

/- `Device{}`. -/
def empty : PhysicalDevice where
  identity := 0
  generation := 0
  physical := fun _ => 0
  held := fun _ => false

end PhysicalDevice

/- The attached keyboards; an identity of zero is null. -/
structure PhysicalDevices where
  slots : Slot → PhysicalDevice
  next : Nat
  distinct : Slots.Distinct (fun i => (slots i).identity)
  numbered : ∀ i, (slots i).identity ≠ 0 → (slots i).generation < next
  unshared : ∀ i j, (slots i).identity ≠ 0 → (slots j).identity ≠ 0 →
      (slots i).generation = (slots j).generation → i = j
  translated : ∀ i, (slots i).identity ≠ 0 → Translates (slots i).physical

namespace PhysicalDevices

def init : PhysicalDevices where
  slots := fun _ => PhysicalDevice.empty
  next := 1
  distinct := by
    intro i j _ hNonzero
    exact absurd rfl hNonzero
  numbered := by
    intro i hNonzero
    exact absurd rfl hNonzero
  unshared := by
    intro i j hNonzero
    exact absurd rfl hNonzero
  translated := by
    intro i hNonzero
    exact absurd rfl hNonzero

/- Use up the next generation. -/
def bump (p : PhysicalDevices) : PhysicalDevices where
  slots := p.slots
  next := p.next + 1
  distinct := p.distinct
  numbered := by
    intro i hNonzero
    have hOld := p.numbered i hNonzero
    omega
  unshared := p.unshared
  translated := p.translated

/- Put a keyboard with the next generation into a slot. -/
def fill (p : PhysicalDevices) (slot : Slot) (identity : Nat) (translation : Key → Nat)
    (hFresh : ∀ i, (p.slots i).identity ≠ identity) (hTranslates : Translates translation) :
    PhysicalDevices where
  slots := Function.update p.slots slot ⟨identity, p.next, translation, fun _ => false⟩
  next := p.next + 1
  distinct := by
    have hFill := p.distinct.fill hFresh slot
    intro i j
    have hIdentity : ∀ k, (Function.update p.slots slot ⟨identity, p.next, translation,
        fun _ => false⟩ k).identity =
        Function.update (fun i => (p.slots i).identity) slot identity k := by
      intro k
      by_cases hk : k = slot
      · simp [hk]
      · simp [hk]
    simp only [hIdentity]
    exact hFill i j
  numbered := by
    intro i hNonzero
    by_cases hi : i = slot
    · simp [hi]
    · rw [Function.update_of_ne hi] at hNonzero ⊢
      have hOld := p.numbered i hNonzero
      omega
  unshared := by
    intro i j hi hj hSame
    by_cases hiSlot : i = slot
    · by_cases hjSlot : j = slot
      · rw [hiSlot, hjSlot]
      · rw [Function.update_of_ne hjSlot] at hj hSame
        have hOld := p.numbered j hj
        simp only [hiSlot, Function.update_self] at hSame
        omega
    · rw [Function.update_of_ne hiSlot] at hi hSame
      have hOld := p.numbered i hi
      by_cases hjSlot : j = slot
      · simp only [hjSlot, Function.update_self] at hSame
        omega
      · rw [Function.update_of_ne hjSlot] at hj hSame
        exact p.unshared i j hi hj hSame
  translated := by
    intro i hNonzero
    by_cases hi : i = slot
    · rw [hi, Function.update_self]
      exact hTranslates
    · rw [Function.update_of_ne hi] at hNonzero ⊢
      exact p.translated i hNonzero

/- Record a raw code of a keyboard as held or not. -/
def press (p : PhysicalDevices) (slot : Slot) (raw : Key) (down : Bool) : PhysicalDevices where
  slots := fun i =>
    if i = slot then
      { p.slots i with held := Function.update (p.slots i).held raw down }
    else p.slots i
  next := p.next
  distinct := by
    intro i j
    have hIdentity : ∀ k, (if k = slot then
        { p.slots k with held := Function.update (p.slots k).held raw down }
        else p.slots k).identity = (p.slots k).identity := by
      intro k
      split <;> rfl
    simp only [hIdentity]
    exact p.distinct i j
  numbered := by
    intro i
    split <;> exact p.numbered i
  unshared := by
    intro i j
    split <;> split <;> exact p.unshared i j
  translated := by
    intro i
    split <;> exact p.translated i

/- Reset a slot. -/
def vacate (p : PhysicalDevices) (slot : Slot) : PhysicalDevices where
  slots := fun i =>
    if i = slot then PhysicalDevice.empty else p.slots i
  next := p.next
  distinct := by
    apply p.distinct.clear
    intro i
    split
    · exact .inr rfl
    · exact .inl rfl
  numbered := by
    intro i
    split
    · intro hNonzero
      exact absurd rfl hNonzero
    · exact p.numbered i
  unshared := by
    intro i j
    split
    · intro hNonzero
      exact absurd rfl hNonzero
    · split
      · intro _ hNonzero
        exact absurd rfl hNonzero
      · exact p.unshared i j
  translated := by
    intro i
    split
    · intro hNonzero
      exact absurd rfl hNonzero
    · exact p.translated i

/- The slot of an attached keyboard. -/
def find (p : PhysicalDevices) (identity : Nat) : Option Slot :=
  Slots.find (fun i => (p.slots i).identity) identity

/- The generation an attached keyboard runs under. -/
def generation? (p : PhysicalDevices) (identity : Nat) : Option Nat :=
  (p.find identity).map (fun i => (p.slots i).generation)

/-
  Register a keyboard under the next generation, which is used up even when the router
  does not take it.
-/
def attach (p : PhysicalDevices) (identity : Nat) (verifiedEvdev virtualDevice : Bool)
    (translation : Key → Nat) (router : Router) : PhysicalDevices × Router × Nat :=
  if identity = 0 ∨ ¬ verifiedEvdev ∨ virtualDevice ∨ p.next = uint64Max then (p, router, 0)
  else if hFresh : ∀ i, (p.slots i).identity ≠ identity then
    if hTranslates : translates translation = true then
      match Slots.vacant (fun i => (p.slots i).identity) with
      | none => (p, router, 0)
      | some slot =>
        let (router, added) := router.add p.next
        if added then
          (p.fill slot identity translation hFresh ((translates_iff translation).mp hTranslates),
            router, p.next)
        else (p.bump, router, 0)
    else (p, router, 0)
  else (p, router, 0)

/- The event of a raw code.  A release of a code that is not held has none. -/
def event (p : PhysicalDevices) (identity raw : Nat) (down : Bool) :
    PhysicalDevices × Option Event :=
  match p.find identity with
  | none => (p, none)
  | some slot =>
    if h : raw < keyCount then
      let raw : Key := ⟨raw, h⟩
      let device := p.slots slot
      let key := device.physical raw
      if key = unmapped then (p, none)
      else if ¬ down ∧ ¬ device.held raw then (p, none)
      else
        let state : State := if down then
            if device.held raw then .repeated else .down
          else .up
        (p.press slot raw down, some { device := device.generation, key := key, state := state })
    else (p, none)

/- Retire a keyboard and free its slot. -/
def detach (p : PhysicalDevices) (identity : Nat) (router : Router) (output : Output) :
    PhysicalDevices × Effect Bool :=
  match p.find identity with
  | none => (p, ⟨router, false, []⟩)
  | some slot =>
    let e := router.retire (p.slots slot).generation output
    (p.vacate slot, ⟨e.router, true, e.calls⟩)

-----
-- Held Keys

/- The generation belongs to an attached keyboard. -/
def Attached (p : PhysicalDevices) (id : Nat) : Prop :=
  ∃ i, (p.slots i).identity ≠ 0 ∧ (p.slots i).generation = id

/- An attached keyboard physically holds the key. -/
def Holds (p : PhysicalDevices) (id : Nat) (key : Key) : Prop :=
  ∃ i raw, (p.slots i).identity ≠ 0 ∧ (p.slots i).generation = id ∧
    (p.slots i).physical raw = key.val ∧
    (p.slots i).held raw = true

variable {p : PhysicalDevices} {id identity : Nat} {key : Key} {slot : Slot}

theorem Attached.lt_next (hAttached : p.Attached id) : id < p.next := by
  rcases hAttached with ⟨i, hNonzero, rfl⟩
  exact p.numbered i hNonzero

theorem mapped_of_val (key : Key) : key.val ≠ unmapped := by
  have hLt := key.isLt
  unfold unmapped
  omega

/- A keyboard holds a key through one raw code. -/
theorem holds_iff (hNonzero : (p.slots slot).identity ≠ 0) {raw : Key}
    (hKey : (p.slots slot).physical raw = key.val) :
    p.Holds (p.slots slot).generation key ↔ (p.slots slot).held raw = true := by
  constructor
  · intro hHolds
    rcases hHolds with ⟨i, raw', hNonzero', hId, hKey', hHeld⟩
    have hSlot := p.unshared i slot hNonzero' hNonzero hId
    subst hSlot
    by_cases hRaw : raw = raw'
    · rw [hRaw]
      exact hHeld
    · have hSame := hKey.trans hKey'.symm
      have hNone := (p.translated i hNonzero).injective raw raw' hRaw hSame
      rw [hKey] at hNone
      exact absurd hNone (mapped_of_val key)
  · intro hHeld
    exact ⟨slot, raw, hNonzero, rfl, hKey, hHeld⟩

/- A raw code moves its own key on its own keyboard. -/
theorem holds_press (hNonzero : (p.slots slot).identity ≠ 0) {raw : Key}
    (hKey : (p.slots slot).physical raw = key.val) (down : Bool) (id : Nat) (key' : Key) :
    (p.press slot raw down).Holds id key' ↔ if id = (p.slots slot).generation ∧ key' = key then
        down = true
      else p.Holds id key' := by
  by_cases hSame : id = (p.slots slot).generation ∧ key' = key
  · rw [if_pos hSame, hSame.1, hSame.2]
    have hPressed : (p.press slot raw down).Holds ((p.press slot raw down).slots slot).generation
          key ↔
        ((p.press slot raw down).slots slot).held raw =
          true :=
      holds_iff (by simpa [press] using hNonzero) (by simpa [press] using hKey)
    simpa [press] using hPressed
  · rw [if_neg hSame]
    have hOther : ∀ raw', (p.slots slot).generation = id → (p.slots slot).physical raw' = key'.val →
        raw' ≠ raw := by
      intro raw' hId hKey' hRaw
      rw [hRaw, hKey] at hKey'
      exact hSame ⟨hId.symm, Fin.ext hKey'.symm⟩
    constructor
    · intro hHolds
      rcases hHolds with ⟨i, raw', hOld, hId, hKey', hHeld⟩
      refine ⟨i, raw', ?_⟩
      by_cases hi : i = slot
      · subst hi
        simp only [press, if_true] at hOld hId hKey' hHeld
        rw [Function.update_of_ne (hOther raw' hId hKey')] at hHeld
        exact ⟨hOld, hId, hKey', hHeld⟩
      · simp only [press, hi, if_false] at hOld hId hKey' hHeld
        exact ⟨hOld, hId, hKey', hHeld⟩
    · intro hHolds
      rcases hHolds with ⟨i, raw', hOld, hId, hKey', hHeld⟩
      refine ⟨i, raw', ?_⟩
      by_cases hi : i = slot
      · subst hi
        simp only [press, if_true]
        rw [Function.update_of_ne (hOther raw' hId hKey')]
        exact ⟨hOld, hId, hKey', hHeld⟩
      · simp only [press, hi, if_false]
        exact ⟨hOld, hId, hKey', hHeld⟩

theorem attached_press (p : PhysicalDevices) (slot : Slot) (raw : Key) (down : Bool) (id : Nat) :
    (p.press slot raw down).Attached id ↔ p.Attached id := by
  unfold Attached press
  refine exists_congr ?_
  intro i
  simp only
  split <;> exact Iff.rfl

/- An attached keyboard of this generation is such. -/
def At (p : PhysicalDevices) (id : Nat) (Q : PhysicalDevice → Prop) : Prop :=
  ∃ i, (p.slots i).identity ≠ 0 ∧ (p.slots i).generation = id ∧ Q (p.slots i)

theorem attached_iff_at (p : PhysicalDevices) (id : Nat) :
    p.Attached id ↔ p.At id (fun _ => True) := by
  simp [Attached, At]

theorem holds_iff_at (p : PhysicalDevices) (id : Nat) (key : Key) :
    p.Holds id key ↔ p.At id (fun device =>
        ∃ raw, device.physical raw = key.val ∧ device.held raw = true) := by
  simp [Holds, At]

theorem at_fill (hVacant : (p.slots slot).identity = 0) (hIdentity : identity ≠ 0)
    {translation : Key → Nat} (hFresh : ∀ i, (p.slots i).identity ≠ identity)
    (hTranslates : Translates translation) (id : Nat) (Q : PhysicalDevice → Prop) :
    (p.fill slot identity translation hFresh hTranslates).At id Q ↔ p.At id Q ∨ (id = p.next ∧
          Q ⟨identity, p.next, translation, fun _ => false⟩) := by
  constructor
  · intro hAt
    rcases hAt with ⟨i, hNonzero, hId, hQ⟩
    by_cases hi : i = slot
    · simp only [fill, hi, Function.update_self] at hId hQ
      exact .inr ⟨hId.symm, hQ⟩
    · simp only [fill, Function.update_of_ne hi] at hNonzero hId hQ
      exact .inl ⟨i, hNonzero, hId, hQ⟩
  · intro hAt
    rcases hAt with ⟨i, hNonzero, hId, hQ⟩ | ⟨hNext, hQ⟩
    · have hi : i ≠ slot := by
        intro hi
        rw [hi] at hNonzero
        exact hNonzero hVacant
      refine ⟨i, ?_⟩
      simp only [fill, Function.update_of_ne hi]
      exact ⟨hNonzero, hId, hQ⟩
    · refine ⟨slot, ?_⟩
      simp only [fill, Function.update_self]
      exact ⟨hIdentity, hNext.symm, hQ⟩

theorem at_vacate (hNonzero : (p.slots slot).identity ≠ 0) (id : Nat) (Q : PhysicalDevice → Prop) :
    (p.vacate slot).At id Q ↔ p.At id Q ∧ id ≠ (p.slots slot).generation := by
  constructor
  · intro hAt
    rcases hAt with ⟨i, hOld, hId, hQ⟩
    by_cases hi : i = slot
    · simp [vacate, hi, PhysicalDevice.empty] at hOld
    · simp only [vacate, hi, if_false] at hOld hId hQ
      refine ⟨⟨i, hOld, hId, hQ⟩, ?_⟩
      intro hSame
      exact hi (p.unshared i slot hOld hNonzero (hId.trans hSame))
  · intro h
    rcases h with ⟨⟨i, hOld, hId, hQ⟩, hOther⟩
    have hi : i ≠ slot := by
      intro hi
      rw [hi] at hId
      exact hOther hId.symm
    refine ⟨i, ?_⟩
    simp only [vacate, hi, if_false]
    exact ⟨hOld, hId, hQ⟩

section Slots

theorem attached_fill (hVacant : (p.slots slot).identity = 0) {identity : Nat}
    (hIdentity : identity ≠ 0) {translation : Key → Nat}
    (hFresh : ∀ i, (p.slots i).identity ≠ identity) (hTranslates : Translates translation)
    (id : Nat) :
    (p.fill slot identity translation hFresh hTranslates).Attached id ↔ p.Attached id ∨ id = p.next := by
  rw [attached_iff_at, attached_iff_at, at_fill hVacant hIdentity, and_true]

theorem holds_fill (hVacant : (p.slots slot).identity = 0) {identity : Nat}
    (hIdentity : identity ≠ 0) {translation : Key → Nat}
    (hFresh : ∀ i, (p.slots i).identity ≠ identity) (hTranslates : Translates translation)
    (id : Nat) (key : Key) :
    (p.fill slot identity translation hFresh hTranslates).Holds id key ↔ p.Holds id key := by
  rw [holds_iff_at, holds_iff_at, at_fill hVacant hIdentity]
  simp

theorem attached_vacate (hNonzero : (p.slots slot).identity ≠ 0) (id : Nat) :
    (p.vacate slot).Attached id ↔ p.Attached id ∧ id ≠ (p.slots slot).generation := by
  rw [attached_iff_at, attached_iff_at, at_vacate hNonzero]

theorem holds_vacate (hNonzero : (p.slots slot).identity ≠ 0) (id : Nat) (key : Key) :
    (p.vacate slot).Holds id key ↔ p.Holds id key ∧ id ≠ (p.slots slot).generation := by
  rw [holds_iff_at, holds_iff_at, at_vacate hNonzero]

end Slots

-----
-- What The Operations Do

/- The state of an event agrees with the held codes. -/
inductive Reports (p : PhysicalDevices) (id : Nat) (key : Key) : State → Bool → Prop where
  | down : ¬ p.Holds id key → Reports p id key .down true
  | repeated : p.Holds id key → Reports p id key .repeated true
  | up : p.Holds id key → Reports p id key .up false

/- An event reports one key of one attached keyboard. -/
structure Reported (p p' : PhysicalDevices) (id : Nat) (key : Key) (state : State) (down : Bool) :
    Prop where
  attached : p.Attached id
  reports : p.Reports id key state down
  attached_iff : ∀ id', p'.Attached id' ↔ p.Attached id'
  holds_iff : ∀ id' key', p'.Holds id' key' ↔ if id' = id ∧ key' = key then down = true
        else p.Holds id' key'

theorem find_nonzero (hFind : p.find identity = some slot) : (p.slots slot).identity ≠ 0 := by
  rcases (Slots.find_eq_some_iff p.distinct).mp hFind with ⟨hNonzero, hIdentity⟩
  rw [hIdentity]
  exact hNonzero

theorem event_cases (p : PhysicalDevices) (identity raw : Nat) (down : Bool) :
    p.event identity raw down = (p, none) ∨ ∃ p' id key state, p.event identity raw down =
          (p', some (Event.ofKey id key state)) ∧
        Reported p p' id key state down := by
  unfold event
  cases hFind : p.find identity with
  | none => exact .inl rfl
  | some slot =>
    have hNonzero := find_nonzero hFind
    by_cases hRaw : raw < keyCount
    · simp only [hRaw, dif_pos]
      split
      · exact .inl rfl
      · rename_i hMapped
        have hLt := (p.translated slot hNonzero).bounded _ hMapped
        split
        · exact .inl rfl
        · rename_i hSolicited
          have hHolds : p.Holds (p.slots slot).generation ⟨_, hLt⟩ ↔
              (p.slots slot).held ⟨raw, hRaw⟩ = true :=
            PhysicalDevices.holds_iff hNonzero rfl
          refine .inr ⟨_, (p.slots slot).generation, ⟨_, hLt⟩, _, rfl, ⟨⟨slot, hNonzero, rfl⟩, ?_,
            p.attached_press slot _ down, ?_⟩⟩
          · cases down with
            | true =>
              cases hHeld : (p.slots slot).held ⟨raw, hRaw⟩ with
              | true => exact .repeated (hHolds.mpr hHeld)
              | false =>
                refine .down ?_
                intro h
                rw [hHolds.mp h] at hHeld
                simp at hHeld
            | false =>
              refine .up (hHolds.mpr ?_)
              simpa using hSolicited
          · exact holds_press hNonzero rfl down
    · simp [hRaw]

/- Attaching changes nothing or adds one new keyboard. -/
theorem attach_cases (p : PhysicalDevices) (identity : Nat) (verifiedEvdev virtualDevice : Bool)
    (translation : Key → Nat)
    (router : Router) :
    let result :=
      p.attach identity verifiedEvdev virtualDevice translation router
    (∀ id key, result.1.Holds id key ↔ p.Holds id key) ∧ ((result.2.1 = router ∧ result.2.2 = 0 ∧
          p.next ≤ result.1.next ∧
          ∀ id, result.1.Attached id ↔ p.Attached id) ∨
        (result.2.1 = (router.add p.next).1 ∧ (router.add p.next).2 = true ∧
          result.2.2 = p.next ∧ result.1.next = p.next + 1 ∧
          ∀ id, result.1.Attached id ↔ p.Attached id ∨ id = p.next)) := by
  unfold attach
  split
  · exact ⟨fun _ _ => Iff.rfl, .inl ⟨rfl, rfl, le_rfl, fun _ => Iff.rfl⟩⟩
  · rename_i hGuard
    split
    · rename_i hFresh
      split
      · rename_i hTranslates
        split
        · exact ⟨fun _ _ => Iff.rfl, .inl ⟨rfl, rfl, le_rfl, fun _ => Iff.rfl⟩⟩
        · rename_i slot hVacant
          have hEmpty := Slots.vacant_eq_some hVacant
          cases hAdded : (router.add p.next).2 with
          | true =>
            simp only [hAdded, if_true]
            push Not at hGuard
            refine ⟨?_, .inr ⟨trivial, trivial, trivial, rfl, ?_⟩⟩
            · exact holds_fill hEmpty hGuard.1 hFresh _
            · exact attached_fill hEmpty hGuard.1 hFresh _
          | false =>
            simp only [hAdded, Bool.false_eq_true, if_false]
            refine ⟨fun _ _ => Iff.rfl, .inl ⟨?_, trivial, Nat.le_succ _, fun _ => Iff.rfl⟩⟩
            unfold Router.add at hAdded ⊢
            split at hAdded
            · simp at hAdded
            · simp
      · exact ⟨fun _ _ => Iff.rfl, .inl ⟨rfl, rfl, le_rfl, fun _ => Iff.rfl⟩⟩
    · exact ⟨fun _ _ => Iff.rfl, .inl ⟨rfl, rfl, le_rfl, fun _ => Iff.rfl⟩⟩

/- Detaching changes nothing or retires one keyboard. -/
theorem detach_cases (p : PhysicalDevices) (identity : Nat) (router : Router) (output : Output) :
    let result := p.detach identity router output
    result = (p, ⟨router, false, []⟩) ∨ ∃ id, p.generation? identity = some id ∧
        result.2.router = (router.retire id output).router ∧
        result.2.calls = (router.retire id output).calls ∧
        (∀ id', result.1.Attached id' ↔ p.Attached id' ∧ id' ≠ id) ∧
        ∀ id' key, result.1.Holds id' key ↔ p.Holds id' key ∧ id' ≠ id := by
  unfold detach
  cases hFind : p.find identity with
  | none => exact .inl rfl
  | some slot =>
    have hNonzero := find_nonzero hFind
    exact .inr ⟨(p.slots slot).generation, by simp [generation?, hFind], rfl, rfl,
      attached_vacate hNonzero, holds_vacate hNonzero⟩

theorem attached_of_generation (hGeneration : p.generation? identity = some id) :
    p.Attached id := by
  unfold generation? at hGeneration
  rcases Option.map_eq_some_iff.mp hGeneration with ⟨slot, hFind, hSlot⟩
  exact ⟨slot, find_nonzero hFind, hSlot⟩

/- Generations are handed out by `attach` only. -/
theorem event_next (p : PhysicalDevices) (identity raw : Nat) (down : Bool) :
    (p.event identity raw down).1.next = p.next := by
  unfold event
  split
  · rfl
  · by_cases hRaw : raw < keyCount
    · simp only [hRaw, dif_pos]
      split
      · rfl
      · split <;> rfl
    · simp only [hRaw, dif_neg, not_false_eq_true]

theorem detach_next (p : PhysicalDevices) (identity : Nat) (router : Router) (output : Output) :
    (p.detach identity router output).1.next = p.next := by
  unfold detach
  split <;> rfl

end PhysicalDevices

end Sledge.Native
