import Mathlib.Data.Finmap

/-
  Finite dictionaries, read through `get?` and equal exactly
  when they answer every lookup alike.  They stand for hash
  maps whose iteration order is never observed.

  Every operation has one lookup lemma, tagged for `simp`;
  `Dict.ext_get?` turns equality into equality of lookups.
-/

-----
-- Dictionaries And Lookup

/- A finite dictionary from `α` to `β`. -/
structure Dict (α β : Type) where
  entries : Finmap (fun _ : α => β)

namespace Dict

variable {α β γ : Type}

instance : EmptyCollection (Dict α β) := ⟨⟨∅⟩⟩

/- The keys bound by a dictionary. -/
def keys (m : Dict α β) : Finset α := m.entries.keys

variable [DecidableEq α]

/- The value bound to a key, if any. -/
def get? (m : Dict α β) (a : α) : Option β := m.entries.lookup a

/- Bind a key, replacing an earlier binding. -/
def insert (m : Dict α β) (a : α) (b : β) : Dict α β := ⟨m.entries.insert a b⟩

/- Drop the binding of one key. -/
def erase (m : Dict α β) (a : α) : Dict α β := ⟨m.entries.erase a⟩

/- Dictionaries are equal when all lookups agree. -/
theorem ext_get? {m n : Dict α β} (h : ∀ a, m.get? a = n.get? a) : m = n := by
  cases m
  cases n
  congr
  exact Finmap.ext_lookup h

@[simp, grind =] theorem get?_empty (a : α) : (∅ : Dict α β).get? a = none := Finmap.lookup_empty a

@[simp, grind =] theorem get?_insert (m : Dict α β) (a : α) (b : β) (a' : α) :
    (m.insert a b).get? a' = if a' = a then some b else m.get? a' := by
  by_cases h : a' = a
  · subst h
    simp [get?, insert, Finmap.lookup_insert]
  · simp [get?, insert, h, Finmap.lookup_insert_of_ne]

@[simp, grind =] theorem get?_erase (m : Dict α β) (a a' : α) :
    (m.erase a).get? a' = if a' = a then none else m.get? a' := by
  by_cases h : a' = a
  · subst h
    simp [get?, erase, Finmap.lookup_erase]
  · simp [get?, erase, h, Finmap.lookup_erase_ne]

theorem mem_keys_iff (m : Dict α β) (a : α) : a ∈ m.keys ↔ (m.get? a).isSome := by
  unfold keys get?
  rw [Finmap.mem_keys, Finmap.lookup_isSome]

omit [DecidableEq α] in
theorem keys_empty : (∅ : Dict α β).keys = ∅ := rfl

theorem keys_insert (m : Dict α β) (a : α) (b : β) :
    (m.insert a b).keys = Insert.insert a m.keys := by
  ext c
  rw [mem_keys_iff, get?_insert, Finset.mem_insert, mem_keys_iff]
  split_ifs with h <;> simp [h]

theorem keys_erase (m : Dict α β) (a : α) : (m.erase a).keys = m.keys.erase a := by
  ext c
  rw [mem_keys_iff, get?_erase, Finset.mem_erase, mem_keys_iff]
  split_ifs with h <;> simp [h]

-----
-- Bulk Operations

/- The dictionary that answers like `f` on `support`. -/
def ofLookup (support : Finset α) (f : α → Option β) : Dict α β :=
  ⟨Finmap.keysLookupEquiv.symm ⟨(support.filter (fun a => (f a).isSome),
      fun a => if a ∈ support then f a else none), by
        intro a
        by_cases h : a ∈ support <;> simp [h]⟩⟩

@[simp, grind =] theorem get?_ofLookup (support : Finset α) (f : α → Option β) (a : α) :
    (ofLookup support f).get? a = if a ∈ support then f a else none := by
  unfold ofLookup get?
  rw [Finmap.keysLookupEquiv_symm_apply_lookup]

/- Keep the bindings that satisfy a predicate. -/
def retain (m : Dict α β) (p : α → β → Bool) : Dict α β :=
  ofLookup m.keys (fun a => (m.get? a).filter (p a))

/- Apply a function to every bound value. -/
def mapValues (m : Dict α β) (f : β → γ) : Dict α γ := ofLookup m.keys (fun a => (m.get? a).map f)

/- No key is bound. -/
def isEmpty (m : Dict α β) : Bool := decide (m.keys = ∅)

/- Some binding satisfies a predicate. -/
def any (m : Dict α β) (p : α → β → Bool) : Bool :=
  decide (∃ a ∈ m.keys, (m.get? a).any (p a) = true)

@[simp, grind =] theorem get?_retain (m : Dict α β) (p : α → β → Bool) (a : α) :
    (m.retain p).get? a = (m.get? a).filter (p a) := by
  unfold retain
  simp only [get?_ofLookup, mem_keys_iff]
  cases h : m.get? a <;> simp

@[simp, grind =] theorem get?_mapValues (m : Dict α β) (f : β → γ) (a : α) :
    (m.mapValues f).get? a = (m.get? a).map f := by
  unfold mapValues
  simp only [get?_ofLookup, mem_keys_iff]
  cases h : m.get? a <;> simp

/- Keep the bindings whose key satisfies a predicate. -/
def restrict (m : Dict α β) (p : α → Bool) : Dict α β := m.retain (fun a _ => p a)

theorem retain_key (m : Dict α β) (p : α → Bool) : m.retain (fun a _ => p a) = m.restrict p := rfl

@[simp, grind =] theorem get?_restrict (m : Dict α β) (p : α → Bool) (a : α) :
    (m.restrict p).get? a = if p a then m.get? a else none := by
  unfold restrict
  rw [get?_retain]
  cases hKey : p a <;> cases hValue : m.get? a <;> simp

theorem isEmpty_iff (m : Dict α β) : m.isEmpty = true ↔ ∀ a, m.get? a = none := by
  unfold isEmpty
  rw [decide_eq_true_iff, Finset.eq_empty_iff_forall_notMem]
  apply forall_congr'
  intro a
  rw [mem_keys_iff]
  cases h : m.get? a <;> simp

theorem isEmpty_eq_false_iff (m : Dict α β) : m.isEmpty = false ↔ ∃ a b, m.get? a = some b := by
  rw [← Bool.not_eq_true, isEmpty_iff]
  simp [Option.ne_none_iff_exists']

theorem any_iff (m : Dict α β) (p : α → β → Bool) :
    m.any p = true ↔ ∃ a b, m.get? a = some b ∧ p a b = true := by
  unfold any
  rw [decide_eq_true_iff]
  constructor
  · rintro ⟨a, _hKey, hAny⟩
    rcases (Option.any_eq_true _ _).mp hAny with ⟨b, hb, hp⟩
    exact ⟨a, b, hb, hp⟩
  · rintro ⟨a, b, hb, hp⟩
    refine ⟨a, ?_, ?_⟩
    · rw [mem_keys_iff, hb]
      rfl
    · simp [hb, hp]

@[simp] theorem isEmpty_insert (m : Dict α β) (a : α) (b : β) : (m.insert a b).isEmpty = false := by
  rw [isEmpty_eq_false_iff]
  exact ⟨a, b, by simp⟩

@[simp] theorem isEmpty_empty : (∅ : Dict α β).isEmpty = true := by
  rw [isEmpty_iff]
  exact get?_empty

end Dict
