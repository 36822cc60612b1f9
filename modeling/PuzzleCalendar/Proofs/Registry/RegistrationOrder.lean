import PuzzleCalendar.CommandLine.Program
import PuzzleCalendar.Proofs.Registry.FiniteMap

/-! # The order of registrations does not matter

A registry takes entries whose days are in the calendar, free and different from each other. Then its
entries are the old ones and the new ones, and that determines it. Neither condition sees an order, so puzzles
may come in any order and in any number of portions. Only which of several errors is reported depends on
the order.
-/

namespace PuzzleCalendar

namespace Registry

variable {registry next : Registry} {entry : Entry} {entries others : List Entry} {date : Date}

theorem contains_eq_false_iff : registry.contains date = false ↔ registry.factory? date = none := by
  rw [contains, find?, Option.isSome_map, Option.isSome_eq_false_iff, Option.isNone_iff_eq_none]

theorem nodup_entries (registry : Registry) : registry.entries.Nodup :=
  (nodup_dates registry).of_map Entry.date

@[simp] theorem entries_empty : empty.entries = [] := by
  rw [← isEmpty_iff, isEmpty, empty]
  simp

/-- A registry is known by its entries in any order. -/
theorem ext_entries {one two : Registry} (same : one.entries.Perm two.entries) : one = two := by
  refine ext_factory? fun date => Option.ext fun factory => ?_
  have listed := same.mem_iff (a := ({ factory with date } : Entry))
  rwa [mem_entries, mem_entries] at listed

theorem contains_eq_false_iff_notMem :
    registry.contains date = false ↔ date ∉ registry.entries.map Entry.date := by
  rw [contains_eq_false_iff, List.mem_map, not_exists, Option.eq_none_iff_forall_ne_some]
  constructor
  · rintro free entry ⟨listed, rfl⟩
    exact free _ (mem_entries.mp listed)
  · intro absent factory held
    exact absent { factory with date } ⟨mem_entries.mpr held, rfl⟩

/-- What a registry holds after one more entry, in any order. -/
theorem perm_cons_of_factory? (free : registry.factory? entry.date = none)
    (after : ∀ date, next.factory? date =
      if date = entry.date then some entry.toFactory else registry.factory? date) :
    next.entries.Perm (entry :: registry.entries) := by
  have absent : entry ∉ registry.entries := by
    rw [mem_entries, free]
    apply Option.some_ne_none _ ∘ Eq.symm
  apply (List.perm_ext_iff_of_nodup (nodup_entries next)
    (List.nodup_cons.mpr ⟨absent, nodup_entries registry⟩)).mpr
  intro other
  rw [List.mem_cons, mem_entries, mem_entries, after]
  by_cases same : other.date = entry.date
  · rw [if_pos same, same, free]
    constructor
    · intro held
      obtain ⟨factory, date⟩ := other
      obtain rfl : date = entry.date := same
      obtain rfl : entry.toFactory = factory := Option.some_inj.mp held
      exact .inl rfl
    · rintro (rfl | held)
      · rfl
      · contradiction
  · have apart : other ≠ entry := fun equal => same (congrArg Entry.date equal)
    simp [same, apart]

/-- One registration needs a free day of the calendar. -/
theorem exists_register_iff : (∃ next, registry.register entry = .ok next) ↔
    entry.date.InCalendar ∧ registry.contains entry.date = false := by
  rw [contains_eq_false_iff]
  obtain ⟨outside, refused⟩ | ⟨-, taken, refused⟩ | ⟨inside, free, made, registered, -⟩ :=
    register_cases registry entry
  · simp [refused, outside]
  · simp [refused, Option.ne_none_iff_isSome.mpr taken]
  · simp [registered, inside, free]

theorem perm_of_register (registered : registry.register entry = .ok next) :
    next.entries.Perm (entry :: registry.entries) := by
  obtain ⟨-, refused⟩ | ⟨-, -, refused⟩ | ⟨-, free, made, registered', after⟩ :=
    register_cases registry entry
  · simp [refused] at registered
  · simp [refused] at registered
  · obtain rfl : made = next := Except.ok.inj (registered'.symm.trans registered)
    exact perm_cons_of_factory? free after

/-- What entries need in order to be registered one after the other. -/
structure Takes (registry : Registry) (entries : List Entry) : Prop where
  inCalendar : ∀ entry ∈ entries, entry.date.InCalendar
  free : ∀ entry ∈ entries, registry.contains entry.date = false
  different : (entries.map Entry.date).Nodup

namespace Takes

theorem nil (registry : Registry) : registry.Takes [] := ⟨by simp, by simp, List.nodup_nil⟩

/-- The first entry is taken at once and the others by the registry that has it. -/
theorem cons_iff (registered : registry.register entry = .ok next) :
    registry.Takes (entry :: entries) ↔ next.Takes entries := by
  obtain ⟨inside, free⟩ := exists_register_iff.mp ⟨next, registered⟩
  have added := perm_of_register registered
  have free_iff (date : Date) :
      next.contains date = false ↔ date ≠ entry.date ∧ registry.contains date = false := by
    rw [contains_eq_false_iff_notMem, contains_eq_false_iff_notMem, (added.map Entry.date).mem_iff,
      List.map_cons, List.mem_cons, not_or]
  constructor
  · rintro ⟨inCalendar, open_, different⟩
    obtain ⟨apart, different⟩ := List.nodup_cons.mp different
    refine ⟨fun other listed => inCalendar other (.tail _ listed), fun other listed => ?_, different⟩
    refine (free_iff other.date).mpr ⟨fun same => ?_, open_ other (.tail _ listed)⟩
    exact apart (same ▸ List.mem_map_of_mem listed)
  · rintro ⟨inCalendar, open_, different⟩
    refine ⟨List.forall_mem_cons.mpr ⟨inside, inCalendar⟩, List.forall_mem_cons.mpr ⟨free, ?_⟩, ?_⟩
    · exact fun other listed => ((free_iff other.date).mp (open_ other listed)).2
    · refine List.nodup_cons.mpr ⟨fun listed => ?_, different⟩
      obtain ⟨other, listed, same⟩ := List.mem_map.mp listed
      exact ((free_iff other.date).mp (open_ other listed)).1 same

/-- The order of the entries does not matter. -/
theorem perm (takes : registry.Takes entries) (same : others.Perm entries) : registry.Takes others where
  inCalendar entry listed := takes.inCalendar entry (same.mem_iff.mp listed)
  free entry listed := takes.free entry (same.mem_iff.mp listed)
  different := (same.map Entry.date).nodup_iff.mpr takes.different

end Takes

/-- Registrations succeed exactly when the registry takes the entries. -/
theorem exists_registerAll_iff :
    (∃ next, registry.registerAll entries = .ok next) ↔ registry.Takes entries := by
  induction entries generalizing registry with
  | nil => exact ⟨fun _ => .nil registry, fun _ => ⟨registry, rfl⟩⟩
  | cons entry entries ih =>
    cases first : registry.register entry with
    | error error =>
      have refused : ¬ ∃ next, registry.register entry = .ok next := by simp [first]
      constructor
      · simp [registerAll, first]
      · intro takes
        exact absurd (exists_register_iff.mpr ⟨takes.inCalendar entry (.head _),
          takes.free entry (.head _)⟩) refused
    | ok middle => rw [registerAll, first, Takes.cons_iff first, ih]

/-- Registrations add just the entries. -/
theorem perm_of_registerAll (registered : registry.registerAll entries = .ok next) :
    next.entries.Perm (registry.entries ++ entries) := by
  induction entries generalizing registry with
  | nil =>
    obtain rfl : registry = next := Except.ok.inj registered
    rw [List.append_nil]
  | cons entry entries ih =>
    cases first : registry.register entry with
    | error error => simp [registerAll, first] at registered
    | ok middle =>
      rw [registerAll, first] at registered
      calc next.entries.Perm (middle.entries ++ entries) := ih registered
        List.Perm _ (entry :: registry.entries ++ entries) := (perm_of_register first).append_right entries
        List.Perm _ (registry.entries ++ entry :: entries) := List.perm_middle.symm

/-- Registrations in two portions are those of the whole. -/
theorem registerAll_append (registry : Registry) (entries others : List Entry) :
    registry.registerAll (entries ++ others) =
      (registry.registerAll entries).bind fun next => next.registerAll others := by
  induction entries generalizing registry with
  | nil => rfl
  | cons entry entries ih =>
    rw [List.cons_append, registerAll, registerAll]
    cases registry.register entry with
    | error error => rfl
    | ok next => exact ih next

/-- Registrations in another order fail alike or give the same registry. -/
theorem toOption_registerAll_perm (same : others.Perm entries) :
    (registry.registerAll others).toOption = (registry.registerAll entries).toOption := by
  cases one : registry.registerAll others with
  | ok next =>
    have takes := (exists_registerAll_iff.mp ⟨next, one⟩).perm same.symm
    obtain ⟨next', two⟩ := exists_registerAll_iff.mpr takes
    have equal : next = next' := by
      apply ext_entries
      calc next.entries.Perm (registry.entries ++ others) := perm_of_registerAll one
        List.Perm _ (registry.entries ++ entries) := same.append_left registry.entries
        List.Perm _ next'.entries := (perm_of_registerAll two).symm
    rw [two, equal]
  | error error =>
    have refused : ¬ ∃ next, registry.registerAll others = .ok next := by simp [one]
    cases two : registry.registerAll entries with
    | ok next =>
      have takes := (exists_registerAll_iff.mp ⟨next, two⟩).perm same
      exact absurd (exists_registerAll_iff.mpr takes) refused
    | error error => rfl

section Plugins

variable {accepts more : Plugin → Bool} {plugins : List Plugin}

/-- The puzzles that either of two disjoint conditions takes are those of the one and those of the
other. -/
theorem perm_filter_append (disjoint : ∀ plugin ∈ plugins, ¬ (accepts plugin ∧ more plugin)) :
    (plugins.filter accepts ++ plugins.filter more).Perm
      (plugins.filter fun plugin => accepts plugin || more plugin) := by
  have split := List.filter_append_perm accepts (plugins.filter fun plugin => accepts plugin || more plugin)
  rw [List.filter_filter, List.filter_filter] at split
  have first : (plugins.filter fun plugin => accepts plugin && (accepts plugin || more plugin)) =
      plugins.filter accepts :=
    List.filter_congr fun plugin _ => by cases accepts plugin <;> rfl
  have second : (plugins.filter fun plugin => !accepts plugin && (accepts plugin || more plugin)) =
      plugins.filter more := by
    apply List.filter_congr
    intro plugin listed
    have apart := disjoint plugin listed
    cases taken : accepts plugin with
    | false => rfl
    | true => simpa [taken] using apart
  rwa [first, second] at split

/-- Two portions of puzzles are registered like their union. -/
theorem registerPlugins_portions (disjoint : ∀ plugin ∈ plugins, ¬ (accepts plugin ∧ more plugin)) :
    ((registry.registerPlugins accepts plugins).bind fun next =>
        next.registerPlugins more plugins).toOption =
      (registry.registerPlugins (fun plugin => accepts plugin || more plugin) plugins).toOption := by
  have gathered := (perm_filter_append disjoint).map Plugin.entry
  rw [List.map_append] at gathered
  rw [registerPlugins, registerPlugins, ← toOption_registerAll_perm gathered, registerAll_append]
  rfl

end Plugins

/-- Registering puzzles does not depend on their order. -/
structure IgnoresOrder (registry : Registry) (plugins : List Plugin) : Prop where
  /-- It succeeds exactly when the puzzles taken have free and different days of the calendar. -/
  succeeds_iff (accepts : Plugin → Bool) :
    (∃ next, registry.registerPlugins accepts plugins = .ok next) ↔
      registry.Takes ((plugins.filter accepts).map Plugin.entry)
  /-- It adds just the puzzles taken. -/
  adds (accepts : Plugin → Bool) (next : Registry) :
    registry.registerPlugins accepts plugins = .ok next →
      next.entries.Perm (registry.entries ++ (plugins.filter accepts).map Plugin.entry)
  /-- Another order fails as well or gives the same registry. -/
  order (accepts : Plugin → Bool) (others : List Plugin) : others.Perm plugins →
    (registry.registerPlugins accepts others).toOption =
      (registry.registerPlugins accepts plugins).toOption
  /-- Two portions, one after the other, fail like their union or give the same registry. -/
  portions (accepts more : Plugin → Bool) : (∀ plugin ∈ plugins, ¬ (accepts plugin ∧ more plugin)) →
    ((registry.registerPlugins accepts plugins).bind fun next =>
        next.registerPlugins more plugins).toOption =
      (registry.registerPlugins (fun plugin => accepts plugin || more plugin) plugins).toOption

end Registry

namespace CommandLine

/-- What the registry for some tags has. -/
structure HoldsTagged (plugins : List Plugin) (tags : List Text) : Prop where
  /-- It has the puzzles that carry all the tags and no others. -/
  mem_entries_iff (registry : Registry) : registryFor plugins tags = .ok registry → ∀ entry,
    entry ∈ registry.entries ↔
      ∃ plugin ∈ plugins, (∀ tag ∈ tags, String.ofList tag ∈ plugin.tags) ∧ plugin.entry = entry
  /-- Neither the order of the tags nor their repetition matters. -/
  sameTags (others : List Text) : (∀ tag, tag ∈ others ↔ tag ∈ tags) →
    registryFor plugins others = registryFor plugins tags

theorem carries_iff {plugin : Plugin} {tags : List Text} :
    plugin.carries (tags.map String.ofList) = true ↔ ∀ tag ∈ tags, String.ofList tag ∈ plugin.tags := by
  simp [Plugin.carries]

theorem holdsTagged (plugins : List Plugin) (tags : List Text) : HoldsTagged plugins tags where
  mem_entries_iff registry registered entry := by
    have added := Registry.perm_of_registerAll registered
    rw [Registry.entries_empty, List.nil_append] at added
    rw [added.mem_iff, List.mem_map]
    simp only [List.mem_filter, carries_iff, and_assoc]
  sameTags others same := by
    have equal : (fun plugin : Plugin => plugin.carries (others.map String.ofList)) =
        fun plugin => plugin.carries (tags.map String.ofList) := by
      funext plugin
      rw [Bool.eq_iff_iff, carries_iff, carries_iff]
      exact forall_congr' fun tag => imp_congr_left (same tag)
    rw [registryFor, registryFor, equal]

/-- Puzzles may be registered in any order and in any number of portions, and a choice by tags takes
exactly the puzzles that carry them all. Which of several errors is reported is left open. -/
theorem registerPlugins_ignores_order (registry : Registry) (plugins : List Plugin) (tags : List Text) :
    registry.IgnoresOrder plugins ∧ HoldsTagged plugins tags := by
  constructor
  · exact {
      succeeds_iff := fun accepts => Registry.exists_registerAll_iff
      adds := fun accepts next registered => Registry.perm_of_registerAll registered
      order := fun accepts others same =>
        Registry.toOption_registerAll_perm ((same.filter accepts).map Plugin.entry)
      portions := fun accepts more disjoint => Registry.registerPlugins_portions disjoint }
  · exact holdsTagged plugins tags

/-- The whole catalogue is registered backwards, and the order of two tags does not matter. -/
theorem registerPlugins_backwards :
    (Registry.empty.registerPlugins (fun _ => true) Catalogue.all.reverse).toOption =
        (Registry.empty.registerPlugins (fun _ => true) Catalogue.all).toOption ∧
      (∃ registry, Registry.empty.registerPlugins (fun _ => true) Catalogue.all = .ok registry) ∧
      registryFor Catalogue.all ["sum".toList, "easy".toList, "sum".toList] =
        registryFor Catalogue.all ["easy".toList, "sum".toList] := by
  obtain ⟨ignores, tagged⟩ := registerPlugins_ignores_order .empty Catalogue.all
    ["easy".toList, "sum".toList]
  refine ⟨ignores.order _ _ (List.reverse_perm _), ?_, tagged.sameTags _ (by simp [or_comm])⟩
  refine (ignores.succeeds_iff _).mpr ⟨by decide, ?_, by decide⟩
  intro entry _
  rw [Registry.contains_eq_false_iff, Registry.factory?_empty]

end CommandLine

end PuzzleCalendar
