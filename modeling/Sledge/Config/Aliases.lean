import Sledge.Daemon.AppScopes

/-
  Validated aliases
  (`packages/config/src/aliases.rs`).

  Validation walks over the aliases in the order of their
  names and remembers who listed an identifier first.  A hash
  map hands its entries out in any order; neither the result
  of validation nor the resolution of an identity shows it.

  Main results:
    * `validateIdentifiers_ok_iff`
    * `validateAppAliases_ok_iff`
    * `sorted_eq`
    * `aliases_validated`
-/

-----
-- Identifiers

namespace Sledge.Config

/- Nothing is left of a blank identifier once trimmed. -/
def blank (id : String) : Bool := id.toList.all isWhitespace

variable {kind : String}

theorem validateIdentifier_ok_iff {name id : String} {u : Unit} :
    validateIdentifier kind name id = .ok u ↔ blank id = false := by
  unfold validateIdentifier blank
  split_ifs with hBlank
  · simp [hBlank]
  · simp [hBlank]

/- Every use passes its check, and no identity comes twice. -/
theorem validateIdentifiers_ok_iff {seen : Dict Identifier String} {uses : List Use} :
    validateIdentifiers kind seen uses = .ok () ↔ (∀ use ∈ uses, blank use.id = false) ∧
        (∀ use ∈ uses, seen.get? use.identity = none) ∧
        (uses.map Use.identity).Nodup := by
  induction uses generalizing seen with
  | nil => simp [validateIdentifiers]
  | cons use uses ih =>
    rw [validateIdentifiers]
    constructor
    · intro hOk
      split at hOk
      · cases hOk
      rename_i hUse
      split at hOk
      · cases hOk
      rename_i hFresh
      rcases ih.mp hOk with ⟨hBlank, hSeen, hNodup⟩
      have hOther : ∀ other ∈ uses, other.identity ≠ use.identity := by
        intro other hMem hSame
        have hNone := hSeen other hMem
        rw [Dict.get?_insert, if_pos hSame] at hNone
        cases hNone
      refine ⟨?_, ?_, ?_⟩
      · intro other hMem
        rcases List.mem_cons.mp hMem with rfl | hRest
        · exact validateIdentifier_ok_iff.mp hUse
        · exact hBlank other hRest
      · intro other hMem
        rcases List.mem_cons.mp hMem with rfl | hRest
        · exact hFresh
        · have hNone := hSeen other hRest
          rwa [Dict.get?_insert, if_neg (hOther other hRest)] at hNone
      · rw [List.map_cons, List.nodup_cons]
        refine ⟨?_, hNodup⟩
        intro hMem
        rcases List.mem_map.mp hMem with ⟨other, hRest, hSame⟩
        exact hOther other hRest hSame
    · rintro ⟨hBlank, hSeen, hNodup⟩
      rw [List.map_cons, List.nodup_cons] at hNodup
      have hUse : validateIdentifier kind use.name use.id = .ok () := validateIdentifier_ok_iff.mpr
          (hBlank use List.mem_cons_self)
      rw [hUse, hSeen use List.mem_cons_self]
      refine ih.mpr ⟨?_, ?_, hNodup.2⟩
      · intro other hMem
        exact hBlank other (List.mem_cons_of_mem _ hMem)
      · intro other hMem
        have hOther : other.identity ≠ use.identity := by
          intro hSame
          apply hNodup.1
          exact List.mem_map.mpr ⟨other, hMem, hSame⟩
        rw [Dict.get?_insert, if_neg hOther]
        exact hSeen other (List.mem_cons_of_mem _ hMem)

-----
-- The Order Of The Names

variable {A : Type} {aliases : Dict String A}

/- One order in which a hash map hands out its entries. -/
structure Iterates (aliases : Dict String A) (entries : List (String × A)) : Prop where
  names : (entries.map Prod.fst).Nodup
  mem : ∀ name entry, (name, entry) ∈ entries ↔ aliases.get? name = some entry

/- What `sort_unstable_by_key` may leave behind. -/
structure SortsTo (entries sorted : List (String × A)) : Prop where
  perm : sorted.Perm entries
  order : sorted.Pairwise (fun a b => a.1 ≤ b.1)

theorem mem_sortedAliases_iff {name : String} {entry : A} :
    (name, entry) ∈ sortedAliases aliases ↔ aliases.get? name = some entry := by
  unfold sortedAliases inOrder
  rw [List.mem_filterMap]
  constructor
  · rintro ⟨found, _, hFound⟩
    rcases Option.map_eq_some_iff.mp hFound with ⟨value, hValue, hPair⟩
    cases hPair
    exact hValue
  · intro hEntry
    refine ⟨name, ?_, by rw [hEntry]; rfl⟩
    rw [Finset.mem_sort, Dict.mem_keys_iff, hEntry]
    rfl

theorem map_fst_sortedAliases :
    (sortedAliases aliases).map Prod.fst = aliases.keys.sort (· ≤ ·) := by
  have hKeys : ∀ names : List String, (∀ name ∈ names, (aliases.get? name).isSome = true) →
      (names.filterMap (fun name =>
            (aliases.get? name).map (fun entry => (name, entry)))).map Prod.fst =
          names := by
    intro names
    induction names with
    | nil =>
      intro _
      rfl
    | cons name names ih =>
      intro hBound
      rcases Option.isSome_iff_exists.mp (hBound name List.mem_cons_self) with ⟨entry, hEntry⟩
      have hTail := ih fun other hOther =>
          hBound other (List.mem_cons_of_mem _ hOther)
      have hPair : (aliases.get? name).map (fun entry => (name, entry)) = some (name, entry) := by
        rw [hEntry]
        rfl
      simp only [List.filterMap_cons, hPair, List.map_cons, hTail]
  refine hKeys _ ?_
  intro name hName
  rw [inOrder, Finset.mem_sort, Dict.mem_keys_iff] at hName
  exact hName

theorem sortedAliases_iterates : Iterates aliases (sortedAliases aliases) where
  names := by
    rw [map_fst_sortedAliases]
    exact Finset.sort_nodup _ _
  mem := fun _ _ => mem_sortedAliases_iff

theorem sortedAliases_order : (sortedAliases aliases).Pairwise (fun a b => a.1 ≤ b.1) := by
  have hKeys := Finset.pairwise_sort aliases.keys (· ≤ ·)
  rw [← map_fst_sortedAliases, List.pairwise_map] at hKeys
  exact hKeys

/- Two iterations hold the same entries. -/
theorem Iterates.perm {entries others : List (String × A)} (hEntries : Iterates aliases entries)
    (hOthers : Iterates aliases others) : entries.Perm others := by
  refine (List.perm_ext_iff_of_nodup (.of_map _ hEntries.names)
    (List.Nodup.of_map _ hOthers.names)).mpr ?_
  rintro ⟨name, entry⟩
  rw [hEntries.mem, hOthers.mem]

/- Sorting forgets the order of the iteration. -/
theorem sorted_eq {entries sorted : List (String × A)} (hEntries : Iterates aliases entries)
    (hSorted : SortsTo entries sorted) : sorted = sortedAliases aliases := by
  have hPerm : sorted.Perm (sortedAliases aliases) :=
    hSorted.perm.trans (hEntries.perm sortedAliases_iterates)
  refine hPerm.eq_of_pairwise ?_ hSorted.order sortedAliases_order
  rintro ⟨name, entry⟩ ⟨other, value⟩ hLeft hRight hLe hGe
  have hSame : name = other := le_antisymm hLe hGe
  subst hSame
  have hFirst := (hEntries.mem name entry).mp (hSorted.perm.mem_iff.mp hLeft)
  have hSecond := mem_sortedAliases_iff.mp hRight
  rw [hFirst] at hSecond
  cases hSecond
  rfl

-----
-- Application Aliases

open Daemon.Linux (Listed)

variable {aliases : Dict String AppAlias}

/- The walk of validation over sorted entries. -/
def validateVisited (sorted : List (String × AppAlias)) : Except ConfigError Unit :=
  validateIdentifiers "app" ∅ (sorted.flatMap (fun entry => appUses entry.1 entry.2))

/- Resolution in the order of an iteration. -/
def resolveIterated (entries : List (String × AppAlias)) (identity : AppIdentity) : Option String :=
  ((entries.filter (fun entry =>
    (appIdentities entry.2).any (· == identity))).map Prod.fst).min?

/- No identifier is blank, and each has one alias. -/
structure SoundAliases (aliases : Dict String AppAlias) : Prop where
  named : ∀ name identity, Listed aliases name identity → blank identity.value = false
  unique : ∀ name other identity, Listed aliases name identity →
      Listed aliases other identity → name = other

theorem appIdentities_nodup (entry : AppAlias) : (appIdentities entry).Nodup := by
  unfold appIdentities
  generalize entry.linuxIds.bind LinuxAppIds.wayland = wayland
  generalize entry.linuxIds.bind LinuxAppIds.x11Class = x11
  cases entry.macos <;> cases entry.linux <;> cases wayland <;>
    cases x11 <;> cases entry.windows <;>
    simp

theorem appUses_identities (name : String) (entry : AppAlias) :
    (appUses name entry).map Use.identity = (appIdentities entry).map Identifier.app := by
  rw [appUses, List.map_map]
  rfl

/- No identity comes twice exactly if each has one alias. -/
theorem identities_nodup_iff : (((sortedAliases aliases).flatMap (fun entry =>
        appUses entry.1 entry.2)).map Use.identity).Nodup ↔
      ∀ name other identity, Listed aliases name identity →
        Listed aliases other identity → name = other := by
  have hNames : ((sortedAliases aliases).map Prod.fst).Nodup := sortedAliases_iterates.names
  rw [List.map_flatMap]
  simp only [appUses_identities]
  rw [List.nodup_flatMap]
  constructor
  · rintro ⟨_, hApart⟩ name other identity ⟨first, hFirst, hMem⟩ ⟨second, hSecond, hOther⟩
    by_contra hNe
    have hSymm : Std.Symm (Function.onFun List.Disjoint (fun entry : String × AppAlias =>
              (appIdentities entry.2).map Identifier.app)) :=
      ⟨fun _ _ hDisjoint => hDisjoint.symm⟩
    have hDisjoint := hApart.set_pairwise (mem_sortedAliases_iff.mpr hFirst)
        (mem_sortedAliases_iff.mpr hSecond)
        (fun hSame => hNe (congrArg Prod.fst hSame))
    exact hDisjoint (List.mem_map_of_mem hMem) (List.mem_map_of_mem hOther)
  · intro hUnique
    refine ⟨?_, ?_⟩
    · intro entry _
      refine (List.nodup_map_iff ?_).mpr (appIdentities_nodup entry.2)
      intro a b hSame
      exact Identifier.app.inj hSame
    · rw [List.Nodup, List.pairwise_map] at hNames
      refine hNames.imp_of_mem ?_
      rintro ⟨name, first⟩ ⟨other, second⟩ hFirst hSecond hNe
      refine List.disjoint_left.mpr ?_
      intro identifier hLeft hRight
      rcases List.mem_map.mp hLeft with ⟨identity, hMem, rfl⟩
      rcases List.mem_map.mp hRight with ⟨same, hOther, hSame⟩
      cases hSame
      exact hNe (hUnique name other identity ⟨first, mem_sortedAliases_iff.mp hFirst, hMem⟩
        ⟨second, mem_sortedAliases_iff.mp hSecond, hOther⟩)

/- Validation accepts exactly sound aliases. -/
theorem validateAppAliases_ok_iff : validateAppAliases aliases = .ok () ↔ SoundAliases aliases := by
  unfold validateAppAliases
  rw [validateIdentifiers_ok_iff, identities_nodup_iff]
  constructor
  · rintro ⟨hBlank, _, hUnique⟩
    refine ⟨?_, hUnique⟩
    rintro name identity ⟨entry, hEntry, hMem⟩
    refine hBlank ⟨name, .app identity, identity.value⟩ ?_
    refine List.mem_flatMap.mpr ⟨(name, entry), ?_, ?_⟩
    · exact mem_sortedAliases_iff.mpr hEntry
    · exact List.mem_map.mpr ⟨identity, hMem, rfl⟩
  · rintro ⟨hNamed, hUnique⟩
    refine ⟨?_, fun _ _ => Dict.get?_empty _, hUnique⟩
    intro use hUse
    rcases List.mem_flatMap.mp hUse with ⟨⟨name, entry⟩, hEntry, hMem⟩
    rcases List.mem_map.mp hMem with ⟨identity, hListed, rfl⟩
    exact hNamed name identity ⟨entry, mem_sortedAliases_iff.mp hEntry, hListed⟩

/- An identity is resolved to the alias that lists it. -/
theorem resolveAppIdentity_eq_some_iff (hSound : SoundAliases aliases) {identity : AppIdentity}
    {name : String} :
    resolveAppIdentity aliases identity = some name ↔ Listed aliases name identity := by
  constructor
  · exact Daemon.Linux.resolveAppIdentity_some
  · intro hListed
    cases hResolved : resolveAppIdentity aliases identity with
    | none => exact absurd hListed (Daemon.Linux.resolveAppIdentity_none hResolved name)
    | some other =>
      have hOther := Daemon.Linux.resolveAppIdentity_some hResolved
      rw [hSound.unique other name identity hOther hListed]

theorem resolveIterated_eq {entries : List (String × AppAlias)}
    (hEntries : Iterates aliases entries) (identity : AppIdentity) :
    resolveIterated entries identity = resolveAppIdentity aliases identity := by
  have hMem : ∀ name, name ∈ (entries.filter (fun entry =>
              (appIdentities entry.2).any (· == identity))).map
              Prod.fst ↔
          name ∈ aliases.keys.filter (fun name =>
            (aliases.get? name).any (fun entry =>
              (appIdentities entry).any (· == identity))) := by
    intro name
    rw [List.mem_map, Finset.mem_filter, Dict.mem_keys_iff]
    constructor
    · rintro ⟨⟨found, entry⟩, hFound, rfl⟩
      rw [List.mem_filter] at hFound
      have hEntry := (hEntries.mem found entry).mp hFound.1
      rw [hEntry]
      exact ⟨rfl, hFound.2⟩
    · rintro ⟨hSome, hAny⟩
      rcases Option.isSome_iff_exists.mp hSome with ⟨entry, hEntry⟩
      rw [hEntry] at hAny
      refine ⟨(name, entry), List.mem_filter.mpr ⟨?_, hAny⟩, rfl⟩
      exact (hEntries.mem name entry).mpr hEntry
  unfold resolveIterated resolveAppIdentity inOrder
  generalize (entries.filter (fun entry =>
      (appIdentities entry.2).any (· == identity))).map Prod.fst =
      names at hMem ⊢
  generalize aliases.keys.filter (fun name =>
      (aliases.get? name).any (fun entry =>
        (appIdentities entry).any (· == identity))) =
      keys at hMem ⊢
  cases hSort : keys.sort (· ≤ ·) with
  | nil =>
    have hNone : names = [] := by
      refine List.eq_nil_iff_forall_not_mem.mpr ?_
      intro name hName
      have hKey := (hMem name).mp hName
      rw [← Finset.mem_sort (· ≤ ·), hSort] at hKey
      cases hKey
    rw [hNone]
    rfl
  | cons first rest =>
    have hOrder := Finset.pairwise_sort keys (· ≤ ·)
    rw [hSort, List.pairwise_cons] at hOrder
    have hKeys : ∀ name, name ∈ names ↔ name ∈ first :: rest := by
      intro name
      rw [hMem, ← hSort, Finset.mem_sort]
    refine List.min?_eq_some_iff.mpr ⟨?_, ?_⟩
    · exact (hKeys first).mpr List.mem_cons_self
    · intro name hName
      rcases List.mem_cons.mp ((hKeys name).mp hName) with rfl | hRest
      · exact le_rfl
      · exact hOrder.1 name hRest

/- Validation and resolution, in every order of iteration. -/
theorem aliases_validated (aliases : Dict String AppAlias) :
    (validateAppAliases aliases = .ok () ↔ SoundAliases aliases) ∧
      (validateAppAliases aliases = .ok () → ∀ identity name,
          (resolveAppIdentity aliases identity = some name ↔ Listed aliases name identity) ∧
            ∀ other, Listed aliases name identity → Listed aliases other identity → name = other) ∧
      ∀ entries sorted, Iterates aliases entries → SortsTo entries sorted →
        validateVisited sorted = validateAppAliases aliases ∧ ∀ identity,
            resolveIterated entries identity = resolveAppIdentity aliases identity := by
  refine ⟨validateAppAliases_ok_iff, ?_, ?_⟩
  · intro hValid identity name
    have hSound := validateAppAliases_ok_iff.mp hValid
    exact ⟨resolveAppIdentity_eq_some_iff hSound, fun other => hSound.unique name other identity⟩
  · intro entries sorted hEntries hSorted
    rw [sorted_eq hEntries hSorted]
    exact ⟨rfl, resolveIterated_eq hEntries⟩

theorem aliases_validated_editor :
    resolveAppIdentity Daemon.Linux.editorAliases (.macOS "com.example.Editor") = some "editor" := by
  have hListed : Listed Daemon.Linux.editorAliases "editor" (.macOS "com.example.Editor") := by
    refine ⟨⟨some "com.example.Editor", none, none, none⟩, rfl, ?_⟩
    decide
  exact (((aliases_validated Daemon.Linux.editorAliases).2.1 Daemon.Linux.editorAliases_valid
    (.macOS "com.example.Editor") "editor").1).mpr hListed

end Sledge.Config
