import Sledge.Native.Routing

/-
  The ownership ledger of a router.

  Every scan of the device array is a statement about the
  ledger `Devices.ownerOf`, which maps a device identifier
  and a key to an owner.  The lemmas here translate the
  scans, and say how each table operation changes the
  ledger, so that later proofs never look at slots.

  Main results:
    * `Devices.ownerOf_setOwner`
    * `Devices.ownerOf_quarantine`
    * `Devices.ownerOf_clear`
    * `Devices.ownerOf_fill`
    * `Devices.otherForwarded_iff`
    * `Devices.ownedKeys_iff`
    * `Devices.targetHeld_eq_false_iff`
    * `Devices.forwardedModifiers_eq`
-/

-----
-- Tracked Devices

namespace Sledge.Native

namespace Devices

/- The table has a slot for this identifier. -/
def Tracked (t : Devices) (id : Nat) : Prop := id ≠ 0 ∧ ∃ i, (t.slots i).id = id

variable {id : Nat} {key : Key} {t t' : Devices}

theorem find_eq_some_iff (t : Devices) {i : Slot} :
    t.find id = some i ↔ id ≠ 0 ∧ (t.slots i).id = id :=
  Slots.find_eq_some_iff t.distinct

theorem isSome_find_iff (t : Devices) (id : Nat) : (t.find id).isSome = true ↔ t.Tracked id := by
  rw [Option.isSome_iff_exists]
  constructor
  · intro hFind
    rcases hFind with ⟨i, hFind⟩
    rcases t.find_eq_some_iff.mp hFind with ⟨hNonzero, hId⟩
    exact ⟨hNonzero, i, hId⟩
  · intro hTracked
    rcases hTracked with ⟨hNonzero, i, hId⟩
    exact ⟨i, t.find_eq_some_iff.mpr ⟨hNonzero, hId⟩⟩

instance (t : Devices) (id : Nat) : Decidable (t.Tracked id) :=
  decidable_of_iff _ (t.isSome_find_iff id)

theorem ownerOf_of_slot (t : Devices) {i : Slot} (hNonzero : (t.slots i).id ≠ 0) (key : Key) :
    t.ownerOf (t.slots i).id key = (t.slots i).owners key := by
  have hFind : t.find (t.slots i).id = some i := t.find_eq_some_iff.mpr ⟨hNonzero, rfl⟩
  simp [ownerOf, hFind]

theorem ownerOf_of_not_tracked (t : Devices) (hNot : ¬ t.Tracked id) (key : Key) :
    t.ownerOf id key = .none := by
  rw [← t.isSome_find_iff] at hNot
  unfold ownerOf
  split
  · rename_i i hFind
    simp [hFind] at hNot
  · rfl

theorem not_tracked_empty (id : Nat) : ¬ empty.Tracked id := by
  intro hTracked
  rcases hTracked with ⟨hNonzero, _, hId⟩
  exact hNonzero hId.symm

theorem tracked_of_owned (t : Devices) (hOwned : t.ownerOf id key ≠ .none) : t.Tracked id := by
  by_contra hNot
  exact hOwned (t.ownerOf_of_not_tracked hNot key)

/- An owner on some slot is an owner in the ledger. -/
theorem exists_slot_iff (t : Devices) (p : Nat → Owner → Prop) (key : Key)
    (hNone : ∀ id, ¬ p id .none) :
    (∃ i, (t.slots i).id ≠ 0 ∧ p (t.slots i).id ((t.slots i).owners key)) ↔
      ∃ id, p id (t.ownerOf id key) := by
  constructor
  · intro hSlot
    rcases hSlot with ⟨i, hNonzero, hp⟩
    refine ⟨(t.slots i).id, ?_⟩
    rw [t.ownerOf_of_slot hNonzero]
    exact hp
  · intro hLedger
    rcases hLedger with ⟨id, hp⟩
    have hOwned : t.ownerOf id key ≠ .none := by
      intro hFree
      rw [hFree] at hp
      exact hNone id hp
    have hTracked : t.Tracked id := t.tracked_of_owned hOwned
    rcases hTracked with ⟨hNonzero, i, rfl⟩
    refine ⟨i, hNonzero, ?_⟩
    rw [← t.ownerOf_of_slot hNonzero]
    exact hp

-----
-- Scans

theorem otherForwarded_iff (t : Devices) (id : Nat) (key : Key) :
    t.otherForwarded id key = true ↔ ∃ other, other ≠ id ∧ t.ownerOf other key = .forwarded := by
  unfold otherForwarded
  rw [← t.exists_slot_iff (fun other owner => other ≠ id ∧ owner = .forwarded) key (by simp)]
  simp only [List.any_eq_true, List.mem_finRange, true_and,
    Bool.and_eq_true, bne_iff_ne, beq_iff_eq]
  constructor
  · intro h
    rcases h with ⟨i, ⟨hOther, hNonzero⟩, hOwner⟩
    exact ⟨i, hNonzero, hOther, hOwner⟩
  · intro h
    rcases h with ⟨i, hNonzero, hOther, hOwner⟩
    exact ⟨i, ⟨hOther, hNonzero⟩, hOwner⟩

theorem ownedKeys_iff (t : Devices) {owner : Owner} (hOwner : owner ≠ .none) (key : Key) :
    t.ownedKeys owner key = true ↔ ∃ id, t.ownerOf id key = owner := by
  unfold ownedKeys
  rw [← t.exists_slot_iff (fun _ held => held = owner) key (fun _ h => hOwner h.symm)]
  simp only [List.any_eq_true, List.mem_finRange, true_and,
    Bool.and_eq_true, bne_iff_ne, beq_iff_eq]

theorem focusEnterKeys_iff (t : Devices) (key : Key) :
    t.focusEnterKeys key = true ↔ ∃ id, t.ownerOf id key = .forwarded :=
  t.ownedKeys_iff (by simp) key

/- The same, by the slot that forwards the key. -/
theorem focusEnterKeys_iff_slot (t : Devices) (key : Key) :
    t.focusEnterKeys key = true ↔ ∃ i, (t.slots i).id ≠ 0 ∧ (t.slots i).owners key = .forwarded := by
  rw [focusEnterKeys_iff, ← t.exists_slot_iff (fun _ owner => owner = .forwarded) key (by simp)]

/- The keys clients hold depend on forwarded owners only. -/
theorem focusEnterKeys_congr
    (hForwarded : ∀ id key, t'.ownerOf id key = .forwarded ↔ t.ownerOf id key = .forwarded) :
    t'.focusEnterKeys = t.focusEnterKeys := by
  funext key
  rw [Bool.eq_iff_iff, focusEnterKeys_iff, focusEnterKeys_iff]
  exact exists_congr (fun id => hForwarded id key)

/- A key is held by a client through one device or others. -/
theorem focusEnterKeys_eq (t : Devices) (id : Nat) (key : Key) :
    t.focusEnterKeys key = (decide (t.ownerOf id key = .forwarded) || t.otherForwarded id key) := by
  rw [Bool.eq_iff_iff, focusEnterKeys_iff, Bool.or_eq_true, decide_eq_true_eq, otherForwarded_iff]
  constructor
  · intro h
    rcases h with ⟨other, hOwner⟩
    by_cases hSame : other = id
    · rw [hSame] at hOwner
      exact .inl hOwner
    · exact .inr ⟨other, hSame, hOwner⟩
  · intro h
    rcases h with hOwner | ⟨other, _, hOwner⟩
    · exact ⟨id, hOwner⟩
    · exact ⟨other, hOwner⟩

/- Changing one owner changes at most its own key. -/
theorem focusEnterKeys_update
    (hOther : ∀ id' key', ¬ (id' = id ∧ key' = key) → t'.ownerOf id' key' = t.ownerOf id' key') :
    t'.focusEnterKeys = Function.update t.focusEnterKeys key
        (decide (t'.ownerOf id key = .forwarded) || t.otherForwarded id key) := by
  funext key'
  by_cases hKey : key' = key
  · subst hKey
    rw [Function.update_self, t'.focusEnterKeys_eq id]
    congr 1
    rw [Bool.eq_iff_iff, otherForwarded_iff, otherForwarded_iff]
    refine exists_congr ?_
    intro other
    refine and_congr_right ?_
    intro hNe
    rw [hOther other key' (fun h => hNe h.1)]
  · rw [Function.update_of_ne hKey, Bool.eq_iff_iff, focusEnterKeys_iff, focusEnterKeys_iff]
    refine exists_congr ?_
    intro other
    rw [hOther other key' (fun h => hKey h.2)]

theorem lockerEnterKeys_iff (t : Devices) (key : Key) :
    t.lockerEnterKeys key = true ↔ ∃ id, t.ownerOf id key = .lockerOwned :=
  t.ownedKeys_iff (by simp) key

theorem targetHeld_eq_false_iff (t : Devices) (key : Nat) :
    t.targetHeld key = false ↔ ∃ h : key < keyCount, ∀ id, t.ownerOf id ⟨key, h⟩ = .none := by
  unfold targetHeld
  by_cases hRange : key < keyCount
  · have hSlots := t.exists_slot_iff (fun _ owner => owner ≠ .none) ⟨key, hRange⟩ (by simp)
    simp only [hRange, dite_true, exists_true_left, List.any_eq_false, List.mem_finRange,
      forall_true_left, Bool.and_eq_true, bne_iff_ne]
    constructor
    · intro hNone id
      by_contra hOwned
      rcases hSlots.mpr ⟨id, hOwned⟩ with ⟨i, hNonzero, hHeld⟩
      exact hNone i ⟨hNonzero, hHeld⟩
    · intro hFree i hHeld
      rcases hSlots.mp ⟨i, hHeld.1, hHeld.2⟩ with ⟨id, hOwned⟩
      exact hOwned (hFree id)
  · simp [hRange]

theorem unowned_iff (t : Devices) : t.unowned = true ↔ ∀ id key, t.ownerOf id key = .none := by
  unfold unowned
  simp only [List.all_eq_true, List.mem_finRange, forall_true_left, beq_iff_eq]
  constructor
  · intro hFree id key
    by_cases hTracked : t.Tracked id
    · rcases hTracked with ⟨hNonzero, i, rfl⟩
      rw [t.ownerOf_of_slot hNonzero]
      exact hFree i key
    · exact t.ownerOf_of_not_tracked hTracked key
  · intro hFree i key
    by_cases hZero : (t.slots i).id = 0
    · exact t.vacant i hZero key
    · rw [← t.ownerOf_of_slot hZero]
      exact hFree _ key

-----
-- Updates

/- Two tables with the same slots holding the same device. -/
theorem ownerOf_congr (hIds : ∀ i, (t'.slots i).id = id ↔ (t.slots i).id = id)
    (hOwners : ∀ i, (t.slots i).id = id → id ≠ 0 → (t'.slots i).owners key = (t.slots i).owners key) :
    t'.ownerOf id key = t.ownerOf id key := by
  by_cases hTracked : t.Tracked id
  · rcases hTracked with ⟨hNonzero, i, hId⟩
    have hFind : t.find id = some i := t.find_eq_some_iff.mpr ⟨hNonzero, hId⟩
    have hFind' : t'.find id = some i := t'.find_eq_some_iff.mpr ⟨hNonzero, (hIds i).mpr hId⟩
    simp only [ownerOf, hFind, hFind']
    exact hOwners i hId hNonzero
  · have hTracked' : ¬ t'.Tracked id := by
      intro h
      rcases h with ⟨hNonzero, i, hId⟩
      exact hTracked ⟨hNonzero, i, (hIds i).mp hId⟩
    rw [t.ownerOf_of_not_tracked hTracked, t'.ownerOf_of_not_tracked hTracked']

theorem mapOwners_id (t : Devices) (id : Nat) (f : (Key → Owner) → Key → Owner) (i : Slot) :
    ((t.mapOwners id f).slots i).id = (t.slots i).id := by
  simp only [mapOwners]
  split <;> rfl

@[simp] theorem tracked_setOwner (t : Devices) (id id' : Nat) (key : Key) (owner : Owner) :
    (t.setOwner id key owner).Tracked id' ↔ t.Tracked id' := by
  unfold Tracked setOwner
  simp only [mapOwners_id]

theorem ownerOf_setOwner (t : Devices) (hTracked : t.Tracked id) (key : Key) (owner : Owner)
    (id' : Nat) (key' : Key) :
    (t.setOwner id key owner).ownerOf id' key' = if id' = id ∧ key' = key then owner
      else t.ownerOf id' key' := by
  rcases hTracked with ⟨hNonzero, i, rfl⟩
  by_cases hId : id' = (t.slots i).id
  · subst hId
    have hSlot : ((t.setOwner (t.slots i).id key owner).slots i).id =
        (t.slots i).id := mapOwners_id ..
    have hRead := (t.setOwner (t.slots i).id key owner).ownerOf_of_slot (by rwa [hSlot]) key'
    rw [hSlot] at hRead
    rw [hRead, t.ownerOf_of_slot hNonzero]
    simp only [setOwner, mapOwners, true_and, ne_eq, hNonzero, not_false_eq_true, and_self, if_true,
      Function.update_apply]
  · simp only [hId, false_and, if_false]
    apply ownerOf_congr
    · intro j
      rw [setOwner, mapOwners_id]
    · intro j hj _
      have hOther : ¬ ((t.slots j).id = (t.slots i).id ∧ (t.slots i).id ≠ 0) := by
        intro h
        exact hId (hj.symm.trans h.1)
      simp only [setOwner, mapOwners, hOther, if_false]

theorem ownerOf_quarantine (t : Devices) (id : Nat) (key : Key) :
    t.quarantine.ownerOf id key = if t.ownerOf id key = .none then .none
      else .quarantined := by
  have hFind : t.quarantine.find id = t.find id := rfl
  unfold ownerOf
  rw [hFind]
  cases t.find id with
  | none | some i => rfl

theorem tracked_clear (t : Devices) (id id' : Nat) :
    (t.clear id).Tracked id' ↔ t.Tracked id' ∧ id' ≠ id := by
  unfold Tracked clear
  constructor
  · intro h
    rcases h with ⟨hNonzero, i, hId⟩
    simp only at hId
    split at hId
    · exact absurd hId.symm hNonzero
    · rename_i hOther
      refine ⟨⟨hNonzero, i, hId⟩, ?_⟩
      intro hSame
      subst hSame
      exact hOther ⟨hId, hNonzero⟩
  · intro h
    rcases h with ⟨⟨hNonzero, i, hId⟩, hOther⟩
    refine ⟨hNonzero, i, ?_⟩
    simp only
    rw [if_neg]
    · exact hId
    · intro hSame
      exact hOther (hId.symm.trans hSame.1)

theorem ownerOf_clear (t : Devices) (id id' : Nat) (key : Key) :
    (t.clear id).ownerOf id' key = if id' = id then .none else t.ownerOf id' key := by
  by_cases hId : id' = id
  · subst hId
    rw [if_pos rfl]
    apply ownerOf_of_not_tracked
    rw [tracked_clear]
    simp
  · rw [if_neg hId]
    by_cases hTracked : t.Tracked id'
    · have hNonzero := hTracked.1
      apply ownerOf_congr
      · intro i
        simp only [clear]
        split
        · rename_i hSame
          constructor
          · intro hEmpty
            exact absurd hEmpty.symm hNonzero
          · intro hOld
            exact absurd (hOld.symm.trans hSame.1) hId
        · rfl
      · intro i hOld _
        have hOther : ¬ ((t.slots i).id = id ∧ id ≠ 0) := by
          intro hSame
          exact hId (hOld.symm.trans hSame.1)
        simp only [clear, hOther, if_false]
    · rw [t.ownerOf_of_not_tracked hTracked]
      apply ownerOf_of_not_tracked
      rw [tracked_clear]
      exact fun h => hTracked h.1

/- Filling a vacant slot tracks exactly one more device. -/
theorem tracked_fill {slot : Slot} (hNonzero : id ≠ 0) (hVacant : (t.slots slot).id = 0) (hSlots :
      t'.slots = Function.update t.slots slot { t.slots slot with id := id })
    (id' : Nat) :
    t'.Tracked id' ↔ t.Tracked id' ∨ id' = id := by
  unfold Tracked
  rw [hSlots]
  constructor
  · intro h
    rcases h with ⟨hNonzero', i, hId⟩
    by_cases hi : i = slot
    · subst hi
      rw [Function.update_self] at hId
      exact .inr hId.symm
    · rw [Function.update_of_ne hi] at hId
      exact .inl ⟨hNonzero', i, hId⟩
  · intro h
    rcases h with ⟨hNonzero', i, hId⟩ | rfl
    · refine ⟨hNonzero', i, ?_⟩
      have hi : i ≠ slot := by
        intro hSame
        rw [hSame, hVacant] at hId
        exact hNonzero' hId.symm
      rw [Function.update_of_ne hi]
      exact hId
    · exact ⟨hNonzero, slot, by rw [Function.update_self]⟩

/- A device in a slot that was vacant owns nothing yet. -/
theorem ownerOf_fill {slot : Slot} (hNonzero : id ≠ 0) (hNew : ¬ t.Tracked id)
    (hVacant : (t.slots slot).id = 0)
    (hSlots : t'.slots = Function.update t.slots slot { t.slots slot with id := id })
    (id' : Nat)
    (key : Key) :
    t'.ownerOf id' key = t.ownerOf id' key := by
  by_cases hId : id' = id
  · subst hId
    have hSlot : (t'.slots slot).id = id' := by rw [hSlots, Function.update_self]
    have hRead := t'.ownerOf_of_slot (by rwa [hSlot]) key
    rw [hSlot] at hRead
    rw [hRead, t.ownerOf_of_not_tracked hNew, hSlots, Function.update_self]
    exact t.vacant slot hVacant key
  · by_cases hTracked : t.Tracked id'
    · have hSlot : ∀ i, (t.slots i).id = id' → i ≠ slot := by
        intro i hi hSame
        rw [hSame, hVacant] at hi
        exact hTracked.1 hi.symm
      apply ownerOf_congr
      · intro i
        rw [hSlots]
        by_cases hi : i = slot
        · subst hi
          rw [Function.update_self]
          constructor
          · intro hSame
            exact absurd hSame.symm hId
          · intro hSame
            exact absurd rfl (hSlot i hSame)
        · rw [Function.update_of_ne hi]
      · intro i hi _
        rw [hSlots, Function.update_of_ne (hSlot i hi)]
    · rw [t.ownerOf_of_not_tracked hTracked]
      apply ownerOf_of_not_tracked
      rw [tracked_fill hNonzero hVacant hSlots]
      simp [hTracked, hId]

/- A registered device is new and owns nothing. -/
theorem add_eq_some (hAdd : t.add id = some t') :
    ¬ t.Tracked id ∧ id ≠ 0 ∧ t.lastGeneration < id ∧ t'.lastGeneration = id ∧
      (∀ id', t'.Tracked id' ↔ t.Tracked id' ∨ id' = id) ∧
      ∀ id' key, t'.ownerOf id' key = t.ownerOf id' key := by
  unfold add at hAdd
  split at hAdd
  · simp at hAdd
  · rename_i hGuard
    push Not at hGuard
    split at hAdd
    · simp at hAdd
    · rename_i slot hVacant
      simp only [Option.some.injEq] at hAdd
      have hEmpty := Slots.vacant_eq_some hVacant
      have hSlots : t'.slots = Function.update t.slots slot { t.slots slot with id := id } := by
        rw [← hAdd]
      have hNot : ¬ t.Tracked id := by
        rw [← t.isSome_find_iff]
        simpa using hGuard.2.2
      refine ⟨hNot, hGuard.1, hGuard.2.1, ?_, ?_, ?_⟩
      · rw [← hAdd]
      · exact tracked_fill hGuard.1 hEmpty hSlots
      · exact ownerOf_fill hGuard.1 hNot hEmpty hSlots

end Devices

-----
-- Modifier Masks

/- The modifier mask of a set of held keys. -/
def maskOf (held : Key → Bool) : Mask :=
  (List.finRange keyCount).foldl (fun mask key =>
      if held key then mask ||| modifier key else mask)
    0

/- A bit of a mask collected in one pass. -/
theorem getLsbD_foldl_or {α : Type} {w : Nat} (p : α → Bool) (f : α → BitVec w) (items : List α)
    (mask : BitVec w) (n : Nat) :
    (items.foldl (fun mask a => if p a then mask ||| f a else mask) mask).getLsbD n =
      (mask.getLsbD n || items.any (fun a => p a && (f a).getLsbD n)) := by
  induction items generalizing mask with
  | nil => simp
  | cons a items ih =>
    rw [List.foldl_cons, ih, List.any_cons]
    cases hp : p a with
    | true => simp [Bool.or_assoc]
    | false => simp

theorem getLsbD_maskOf (held : Key → Bool) (n : Nat) :
    (maskOf held).getLsbD n = true ↔ ∃ key, held key = true ∧ (modifier key).getLsbD n = true := by
  unfold maskOf
  rw [getLsbD_foldl_or]
  simp [List.any_eq_true]

namespace Devices

theorem getLsbD_deviceModifiers (device : Device) (mask : Mask) (n : Nat) :
    (deviceModifiers device mask).getLsbD n = true ↔ mask.getLsbD n = true ∨
        ∃ key, device.owners key = .forwarded ∧ (modifier key).getLsbD n = true := by
  have hFold := getLsbD_foldl_or (fun key => decide (device.owners key = .forwarded))
      modifier (List.finRange keyCount) mask n
  simp only [decide_eq_true_eq] at hFold
  unfold deviceModifiers
  rw [hFold]
  simp [List.any_eq_true]

theorem getLsbD_foldl_devices (t : Devices) (slots : List Slot) (mask : Mask) (n : Nat) :
    (slots.foldl (fun mask i =>
          if (t.slots i).id ≠ 0 then
            deviceModifiers (t.slots i) mask
          else mask) mask).getLsbD n = true ↔
      mask.getLsbD n = true ∨ ∃ i ∈ slots, (t.slots i).id ≠ 0 ∧
          ∃ key, (t.slots i).owners key = .forwarded ∧ (modifier key).getLsbD n = true := by
  induction slots generalizing mask with
  | nil => simp
  | cons i slots ih =>
    rw [List.foldl_cons, ih]
    by_cases hZero : (t.slots i).id = 0
    · simp [hZero]
    · simp [hZero, getLsbD_deviceModifiers, or_assoc]

/- The router's scan is the mask of the forwarded keys. -/
theorem forwardedModifiers_eq (t : Devices) : t.forwardedModifiers = maskOf t.focusEnterKeys := by
  apply BitVec.eq_of_getLsbD_eq
  intro n _
  rw [Bool.eq_iff_iff, getLsbD_maskOf]
  unfold forwardedModifiers
  rw [getLsbD_foldl_devices]
  constructor
  · intro h
    rcases h with hZero | ⟨i, _, hNonzero, key, hOwner, hBit⟩
    · simp at hZero
    · refine ⟨key, ?_, hBit⟩
      rw [focusEnterKeys_iff_slot]
      exact ⟨i, hNonzero, hOwner⟩
  · intro h
    rcases h with ⟨key, hHeld, hBit⟩
    rcases (t.focusEnterKeys_iff_slot key).mp hHeld with ⟨i, hNonzero, hOwner⟩
    exact .inr ⟨i, List.mem_finRange i, hNonzero, key, hOwner, hBit⟩

end Devices

-----
-- Keys To Release

namespace Router

/- One device's scan appends its forwarded keys, once. -/
theorem mem_scan_iff (device : Device) (keys : List Key) (released : List Key) (key : Key) :
    key ∈ keys.foldl (fun released key =>
          if device.owners key = .forwarded ∧ key ∉ released then
            released ++ [key]
          else released) released ↔
      key ∈ released ∨ (key ∈ keys ∧ device.owners key = .forwarded) := by
  induction keys generalizing released with
  | nil => simp
  | cons first keys ih =>
    rw [List.foldl_cons, ih]
    by_cases hFirst : device.owners first = .forwarded ∧ first ∉ released
    · rw [if_pos hFirst]
      grind
    · rw [if_neg hFirst]
      grind

theorem nodup_scan (device : Device) (keys : List Key) {released : List Key}
    (hNodup : released.Nodup) :
    (keys.foldl (fun released key =>
          if device.owners key = .forwarded ∧ key ∉ released then
            released ++ [key]
          else released) released).Nodup := by
  induction keys generalizing released with
  | nil => exact hNodup
  | cons first keys ih =>
    rw [List.foldl_cons]
    apply ih
    split
    · rename_i hFirst
      rw [List.nodup_append]
      refine ⟨hNodup, List.nodup_singleton first, ?_⟩
      intro a ha b hb hSame
      rw [List.mem_singleton] at hb
      subst hb
      subst hSame
      exact hFirst.2 ha
    · exact hNodup

theorem mem_foldl_revokeDevice_iff (t : Devices) (slots : List Slot) (released : List Key)
    (key : Key) :
    key ∈ slots.foldl (fun released i =>
          revokeDevice (t.slots i) released) released ↔
      key ∈ released ∨ ∃ i ∈ slots, (t.slots i).owners key = .forwarded := by
  induction slots generalizing released with
  | nil => simp
  | cons i slots ih =>
    rw [List.foldl_cons, ih, revokeDevice, mem_scan_iff]
    simp [or_assoc]

theorem nodup_foldl_revokeDevice (t : Devices) (slots : List Slot) {released : List Key}
    (hNodup : released.Nodup) :
    (slots.foldl (fun released i => revokeDevice (t.slots i) released) released).Nodup := by
  induction slots generalizing released with
  | nil => exact hNodup
  | cons i slots ih =>
    rw [List.foldl_cons]
    exact ih (nodup_scan _ _ hNodup)

/- `revoke` releases exactly the keys clients hold. -/
theorem mem_revokedKeys_iff (t : Devices) (key : Key) :
    key ∈ revokedKeys t ↔ t.focusEnterKeys key = true := by
  unfold revokedKeys
  rw [mem_foldl_revokeDevice_iff, t.focusEnterKeys_iff_slot]
  simp only [List.not_mem_nil, false_or, List.mem_finRange, true_and]
  constructor
  · intro h
    rcases h with ⟨i, hOwner⟩
    -- the scan does not test identifiers: vacant slots own
    -- nothing
    refine ⟨i, ?_, hOwner⟩
    intro hZero
    rw [t.vacant i hZero key] at hOwner
    simp at hOwner
  · intro h
    rcases h with ⟨i, _, hOwner⟩
    exact ⟨i, hOwner⟩

theorem nodup_revokedKeys (t : Devices) : (revokedKeys t).Nodup :=
  nodup_foldl_revokeDevice t _ List.nodup_nil

theorem mem_retiredKeys_iff (t : Devices) (id : Nat) (key : Key) :
    key ∈ retiredKeys t id ↔ t.ownerOf id key = .forwarded ∧ ∀ other, other ≠ id →
          t.ownerOf other key ≠ .forwarded := by
  unfold retiredKeys
  simp only [List.mem_filter, List.mem_finRange, true_and, Bool.and_eq_true, beq_iff_eq,
    Bool.not_eq_true', ← Bool.not_eq_true, t.otherForwarded_iff]
  simp

theorem nodup_retiredKeys (t : Devices) (id : Nat) : (retiredKeys t id).Nodup :=
  (List.nodup_finRange keyCount).filter _

end Router

end Sledge.Native
