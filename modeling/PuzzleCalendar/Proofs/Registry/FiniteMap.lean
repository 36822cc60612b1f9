import Mathlib.Data.Finmap
import PuzzleCalendar.Registry

/-! # Registries are finite maps

A registry is read as a finite map from days to what is registered for them. Registering inserts into the
map or fails as the map says, and every question to the registry has the answer of the map. The entries
come in the order of the calendar because places do.
-/

namespace PuzzleCalendar

/-- What is registered for each day. -/
abbrev FactoryMap := Finmap fun _ : Date => Factory

namespace FactoryMap

/-- The map with one more entry, which needs a free day of the calendar. -/
def register (map : FactoryMap) (entry : Entry) : Except RegistrationError FactoryMap :=
  if ¬ entry.date.InCalendar then .error (.invalidYearDay entry.date.year entry.date.day)
  else if entry.date ∈ map then .error (.duplicateSolver entry.date.year entry.date.day)
  else .ok (map.insert entry.date entry.toFactory)

/-- The map with entries registered one after the other. -/
def registerAll (map : FactoryMap) (entries : List Entry) : Except RegistrationError FactoryMap :=
  entries.foldlM register map

end FactoryMap

namespace Registry

variable {registry next : Registry} {map : FactoryMap} {entry : Entry} {date : Date}

/-- A registry is known by what it has for each day. -/
theorem ext_factory? {one two : Registry} (same : ∀ date, one.factory? date = two.factory? date) :
    one = two := by
  obtain ⟨first⟩ := one
  obtain ⟨second⟩ := two
  congr 1
  apply Vector.ext
  intro place within
  have at_place := same (Date.atPlace place)
  rw [factory?, factory?, Date.place?_atPlace ⟨place, within⟩] at at_place
  exact at_place

theorem factory?_empty (date : Date) : empty.factory? date = none := by
  cases placed : date.place? with
  | none => simp [factory?, placed]
  | some place => simp [factory?, placed, empty]

/-- All that a registration can come to. -/
theorem register_cases (registry : Registry) (entry : Entry) :
    (¬ entry.date.InCalendar ∧
      registry.register entry = .error (.invalidYearDay entry.date.year entry.date.day)) ∨
    (entry.date.InCalendar ∧ (registry.factory? entry.date).isSome ∧
      registry.register entry = .error (.duplicateSolver entry.date.year entry.date.day)) ∨
    (entry.date.InCalendar ∧ registry.factory? entry.date = none ∧
      ∃ next, registry.register entry = .ok next ∧ ∀ date, next.factory? date =
        if date = entry.date then some entry.toFactory else registry.factory? date) := by
  cases placed : entry.date.place? with
  | none =>
    refine .inl ⟨Date.place?_eq_none_iff.mp placed, ?_⟩
    simp [register, placed]
  | some place =>
    have inside := Date.inCalendar_of_place? placed
    have here : registry.factory? entry.date = registry.places[place] := by simp [factory?, placed]
    right
    cases held : registry.places[place] with
    | some factory =>
      refine .inl ⟨inside, by simp [here, held], ?_⟩
      simp [register, placed, held]
    | none =>
      refine .inr ⟨inside, by rw [here, held], _, by simp only [register, placed, held]; rfl, ?_⟩
      intro date
      split
      · rename_i same
        subst same
        simp [factory?, placed]
      · rename_i different
        unfold factory?
        cases other : date.place? with
        | none => rfl
        | some away =>
          have apart : place ≠ away := by
            rintro rfl
            exact different ((Date.atPlace_of_place? other).symm.trans (Date.atPlace_of_place? placed))
          simp [Vector.getElem_set_ne, Fin.val_ne_of_ne apart]

theorem mem_entries : entry ∈ registry.entries ↔ registry.factory? entry.date = some entry.toFactory := by
  unfold entries
  rw [List.mem_filterMap]
  constructor
  · rintro ⟨⟨factory?, place⟩, listed, made⟩
    obtain ⟨factory, rfl, rfl⟩ := Option.map_eq_some_iff.mp made
    obtain ⟨within, held⟩ := List.getElem?_eq_some_iff.mp (List.mk_mem_zipIdx_iff_getElem?.mp listed)
    have inside : place < Date.placeCount := by simpa using within
    rw [factory?, Date.place?_atPlace ⟨place, inside⟩]
    simpa using held
  · intro held
    obtain ⟨place, placed, there⟩ := Option.bind_eq_some_iff.mp held
    refine ⟨(some entry.toFactory, place), ?_, ?_⟩
    · rw [List.mk_mem_zipIdx_iff_getElem?]
      simpa using there
    · simp [Date.atPlace_of_place? placed]

/-- The entries come in the order of the calendar. -/
theorem pairwise_entries (registry : Registry) :
    registry.entries.Pairwise fun first second => first.date.Before second.date := by
  unfold entries
  rw [List.pairwise_filterMap]
  have ordered : (registry.places.toList.zipIdx.map Prod.snd).Pairwise (· < ·) := by
    rw [List.zipIdx_map_snd]
    exact List.pairwise_lt_range'
  refine (List.pairwise_map.mp ordered).imp_of_mem ?_
  rintro ⟨_, early⟩ ⟨_, late⟩ _ listed before first made second made'
  obtain ⟨_, _, rfl⟩ := Option.map_eq_some_iff.mp made
  obtain ⟨_, _, rfl⟩ := Option.map_eq_some_iff.mp made'
  have within := List.snd_lt_of_mem_zipIdx listed
  exact Date.atPlace_before (by simpa using within) before

/-- No day has two entries. -/
theorem nodup_dates (registry : Registry) : (registry.entries.map Entry.date).Nodup := by
  refine List.pairwise_map.mpr ((pairwise_entries registry).imp ?_)
  intro first second before same
  rw [same] at before
  simp [Date.Before] at before

theorem size_eq_length (registry : Registry) : registry.size = registry.entries.length := by
  have placed : registry.places.toList = registry.places.toList.zipIdx.map Prod.fst :=
    (List.zipIdx_map_fst 0 registry.places.toList).symm
  rw [size, entries, List.length_filterMap_eq_countP, placed, List.countP_map, ← placed]
  simp [Function.comp_def]

theorem isEmpty_iff : registry.isEmpty = true ↔ registry.entries = [] := by
  rw [isEmpty, List.eq_nil_iff_length_eq_zero, ← size_eq_length, size, List.countP_eq_zero, List.all_eq_true]
  simp

/-- The registry has for each day what the map has. -/
def Shows (registry : Registry) (map : FactoryMap) : Prop :=
  ∀ date, registry.factory? date = map.lookup date

/-- Every question to the registry has the answer of the map. -/
structure AgreesWith (registry : Registry) (map : FactoryMap) : Prop where
  find?_eq (date : Date) :
    registry.find? date = (map.lookup date).map fun factory => { factory with date }
  contains_iff (date : Date) : registry.contains date = true ↔ date ∈ map
  size_eq : registry.size = map.keys.card
  isEmpty_iff : registry.isEmpty = true ↔ map = ∅
  mem_entries_iff (entry : Entry) :
    entry ∈ registry.entries ↔ map.lookup entry.date = some entry.toFactory
  entries_ordered : registry.entries.Pairwise fun first second => first.date.Before second.date
  create_eq (date : Date) (input : Text) : registry.create date input =
    if ¬ date.InCalendar then Outcome.report (.invalidYearDay date.year date.day)
    else
      match map.lookup date with
      | none => Outcome.report (.notFound date.year date.day)
      | some factory => (factory.create input).mapReport LookupError.parse

namespace Shows

theorem contains_iff (shows : registry.Shows map) : registry.contains date = true ↔ date ∈ map := by
  rw [contains, find?, Option.isSome_map, shows date, Finmap.lookup_isSome]

theorem mem_dates_iff (shows : registry.Shows map) :
    date ∈ registry.entries.map Entry.date ↔ date ∈ map.keys := by
  rw [Finmap.mem_keys, Finmap.mem_iff, List.mem_map]
  constructor
  · rintro ⟨entry, listed, rfl⟩
    exact ⟨entry.toFactory, (shows entry.date).symm.trans (mem_entries.mp listed)⟩
  · rintro ⟨factory, held⟩
    exact ⟨{ factory with date }, mem_entries.mpr ((shows date).trans held), rfl⟩

theorem size_eq (shows : registry.Shows map) : registry.size = map.keys.card := by
  have keys : (registry.entries.map Entry.date).toFinset = map.keys := by
    ext date
    rw [List.mem_toFinset, shows.mem_dates_iff]
  rw [← keys, List.toFinset_card_of_nodup (nodup_dates registry), List.length_map, size_eq_length]

theorem isEmpty_iff (shows : registry.Shows map) : registry.isEmpty = true ↔ map = ∅ := by
  rw [Registry.isEmpty_iff, List.eq_nil_iff_length_eq_zero, ← size_eq_length, shows.size_eq,
    Finset.card_eq_zero]
  constructor
  · intro none
    refine Finmap.ext_lookup fun date => ?_
    rw [Finmap.lookup_empty, Finmap.lookup_eq_none, ← Finmap.mem_keys, none]
    exact Finset.notMem_empty date
  · rintro rfl
    exact Finmap.keys_empty

theorem create_eq (shows : registry.Shows map) (date : Date) (input : Text) :
    registry.create date input =
      if ¬ date.InCalendar then Outcome.report (.invalidYearDay date.year date.day)
      else
        match map.lookup date with
        | none => Outcome.report (.notFound date.year date.day)
        | some factory => (factory.create input).mapReport LookupError.parse := by
  cases placed : date.place? with
  | none => simp [create, placed, Date.place?_eq_none_iff.mp placed]
  | some place =>
    have here : map.lookup date = registry.places[place] := by
      rw [← shows date, factory?, placed]
      rfl
    rewrite [if_neg (not_not_intro (Date.inCalendar_of_place? placed)), here, create, placed]
    rfl

/-- What a registry shows settles all its answers. -/
theorem agreesWith (shows : registry.Shows map) : registry.AgreesWith map where
  find?_eq date := by rw [find?, shows date]
  contains_iff _ := shows.contains_iff
  size_eq := shows.size_eq
  isEmpty_iff := shows.isEmpty_iff
  mem_entries_iff entry := by rw [mem_entries, shows entry.date]
  entries_ordered := pairwise_entries registry
  create_eq := shows.create_eq

end Shows

theorem empty_shows : empty.Shows ∅ := fun date => by rw [factory?_empty, Finmap.lookup_empty]

/-- Registering on a registry and on a map gives the same error, or a registry that agrees with the
map. -/
inductive Refines : Except RegistrationError Registry → Except RegistrationError FactoryMap → Prop
  | refused (error : RegistrationError) : Refines (.error error) (.error error)
  | registered {registry : Registry} {map : FactoryMap} (agrees : registry.AgreesWith map) :
      Refines (.ok registry) (.ok map)

/-- One registration keeps what a registry shows. -/
theorem Shows.register (shows : registry.Shows map) (entry : Entry) :
    (∃ error, registry.register entry = .error error ∧ map.register entry = .error error) ∨
      ∃ next more, registry.register entry = .ok next ∧ map.register entry = .ok more ∧
        next.Shows more := by
  obtain ⟨outside, refused⟩ | ⟨inside, taken, refused⟩ | ⟨inside, free, next, registered, after⟩ :=
    register_cases registry entry
  · exact .inl ⟨_, refused, by simp [FactoryMap.register, outside]⟩
  · rw [shows entry.date, Finmap.lookup_isSome] at taken
    exact .inl ⟨_, refused, by simp [FactoryMap.register, inside, taken]⟩
  · rw [shows entry.date, Finmap.lookup_eq_none] at free
    refine .inr ⟨next, map.insert entry.date entry.toFactory, registered, ?_, fun date => ?_⟩
    · simp [FactoryMap.register, inside, free]
    · rw [after date]
      split
      · rename_i same
        rw [same, Finmap.lookup_insert]
      · rename_i different
        rw [Finmap.lookup_insert_of_ne _ different, shows date]

theorem Shows.registerAll (shows : registry.Shows map) (entries : List Entry) :
    Refines (registry.registerAll entries) (map.registerAll entries) := by
  induction entries generalizing registry map with
  | nil => exact .registered shows.agreesWith
  | cons entry entries ih =>
    obtain ⟨error, refused, refused'⟩ | ⟨next, more, registered, registered', shows⟩ :=
      shows.register entry
    · rw [Registry.registerAll, refused, FactoryMap.registerAll, List.foldlM_cons, refused']
      exact .refused error
    · rw [Registry.registerAll, registered, FactoryMap.registerAll, List.foldlM_cons, registered']
      exact ih shows

/-- A registry is a finite map: any registrations, one after the other, end on a registry as they end on
the empty map, with the same error or with a registry all of whose answers are those of the map. -/
theorem registerAll_refines_finiteMap (entries : List Entry) :
    Refines (empty.registerAll entries) (FactoryMap.registerAll ∅ entries) :=
  empty_shows.registerAll entries

end Registry

end PuzzleCalendar
