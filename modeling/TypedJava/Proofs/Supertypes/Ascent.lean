import TypedJava.Proofs.Catalog.History
import TypedJava.Supertypes

/-! # Ascents

An ascent leads from a type to a type above it, one supertype at a time. The search for a view tries
the supertypes one after the other and only counts its steps, so it keeps no list of what it has
seen. It does not climb out of an array: it knows the classes above all arrays. On every catalog it
finds the end of an ascent within its limit that climbs out of no array, and it finds one whenever
there is one. Other ascents end where these do as long as the classes above all arrays have only the
root class above them, which is so on every catalog that was built by registration. -/

namespace TypedJava

namespace Catalog

/-- The second type is reached from the first one by a number of steps to a direct supertype. -/
inductive Ascends (catalog : Catalog) : Nat → Ty → Ty → Prop
  | here (type : Ty) : Ascends catalog 0 type type
  | up {steps : Nat} {type above last : Ty} :
      above ∈ catalog.immediateSupertypes type → Ascends catalog steps above last →
      Ascends catalog (steps + 1) type last

/-- An ascent that climbs out of no array. -/
inductive Climbs (catalog : Catalog) : Nat → Ty → Ty → Prop
  | here (type : Ty) : Climbs catalog 0 type type
  | up {steps : Nat} {type above last : Ty} :
      type.isArray = false → above ∈ catalog.immediateSupertypes type →
      Climbs catalog steps above last → Climbs catalog (steps + 1) type last

theorem Climbs.ascends
    {catalog : Catalog} {steps : Nat} {type last : Ty} (climb : catalog.Climbs steps type last) :
    catalog.Ascends steps type last := by
  induction climb with
  | here type =>
      exact .here type
  | up _ member _ inductionHypothesis =>
      exact .up member inductionHypothesis

/-- What the end of an ascent looks like as an instance of a class. Arrays are raw instances of the
classes above all arrays. -/
inductive ShowsAs (catalog : Catalog) (target : DefinitionId) : Ty → Ty → Prop
  | use (arguments : List Ty) :
      ShowsAs catalog target (.classType target arguments) (.classType target arguments)
  | array (element : Ty) :
      catalog.isAboveArrays target = true → ShowsAs catalog target (.array element) (.raw target)

section Search

variable {catalog : Catalog} {target : DefinitionId} {type last view : Ty} {steps fuel : Nat}

theorem Ascends.trans {more : Nat} {middle : Ty}
    (first : catalog.Ascends steps type middle) (second : catalog.Ascends more middle last) :
    catalog.Ascends (steps + more) type last := by
  induction first with
  | here type =>
      rw [Nat.zero_add]
      exact second
  | @up steps _ _ _ member _ inductionHypothesis =>
      rw [Nat.succ_add]
      exact .up member (inductionHypothesis second)

/-- A type that stands for another one has the view of that type. -/
theorem viewWithin_of_isOpen
    (catalog : Catalog) (target : DefinitionId)
    (isOpen : (type.isTypeVariable || type.isWildcard) = true) (fuel : Nat) :
    catalog.viewWithin target (fuel + 1) type =
        catalog.viewWithin target fuel (catalog.ceiling type) ∧
      catalog.immediateSupertypes type = [catalog.ceiling type] ∧ type.isArray = false := by
  cases type with
  | typeVariable id bound => exact ⟨rfl, rfl, rfl⟩
  | unboundedWildcard => exact ⟨rfl, rfl, rfl⟩
  | upperWildcard upper => exact ⟨rfl, rfl, rfl⟩
  | lowerWildcard lower => exact ⟨rfl, rfl, rfl⟩
  | _ => cases isOpen

/-- A view is the end of an ascent that climbs out of no array. -/
theorem exists_climbs_of_viewWithin
    (found : catalog.viewWithin target fuel type = some view) :
    ∃ steps last, steps < fuel ∧ catalog.Climbs steps type last ∧
      catalog.ShowsAs target last view := by
  induction fuel generalizing type with
  | zero =>
      cases found
  | succ fuel inductionHypothesis =>
      have above {higher : Ty} (noArray : type.isArray = false)
          (member : higher ∈ catalog.immediateSupertypes type)
          (found : catalog.viewWithin target fuel higher = some view) :
          ∃ steps last, steps < fuel + 1 ∧ catalog.Climbs steps type last ∧
            catalog.ShowsAs target last view := by
        obtain ⟨steps, last, less, climb, shows⟩ := inductionHypothesis found
        exact ⟨steps + 1, last, by omega, .up noArray member climb, shows⟩
      cases isOpen : type.isTypeVariable || type.isWildcard with
      | true =>
          obtain ⟨sameView, sameAbove, noArray⟩ := viewWithin_of_isOpen catalog target isOpen fuel
          rw [sameView] at found
          apply above noArray _ found
          rw [sameAbove]
          exact List.mem_singleton_self _
      | false =>
          cases type with
          | classType id arguments =>
              rw [viewWithin] at found
              split at found
              · rename_i same
                cases found
                subst same
                exact ⟨0, _, Nat.succ_pos fuel, .here _, .use arguments⟩
              · obtain ⟨higher, member, found⟩ := List.exists_of_findSome?_eq_some found
                exact above rfl member found
          | array element =>
              rw [viewWithin] at found
              split at found
              · rename_i isAbove
                cases found
                exact ⟨0, _, Nat.succ_pos fuel, .here _, .array element isAbove⟩
              · cases found
          | primitive kind =>
              cases found
          | null =>
              cases found
          | _ =>
              cases isOpen

/-- A view is the end of an ascent. -/
theorem exists_ascends_of_viewWithin
    (found : catalog.viewWithin target fuel type = some view) :
    ∃ steps last, steps < fuel ∧ catalog.Ascends steps type last ∧
      catalog.ShowsAs target last view := by
  obtain ⟨steps, last, less, climb, shows⟩ := exists_climbs_of_viewWithin found
  exact ⟨steps, last, less, climb.ascends, shows⟩

/-- The search finds a view wherever an ascent within its limit leads to one that climbs out of no
array. -/
theorem isSome_viewWithin_of_climbs
    (climb : catalog.Climbs steps type last) (shows : catalog.ShowsAs target last view)
    (less : steps < fuel) :
    (catalog.viewWithin target fuel type).isSome = true := by
  induction climb generalizing fuel with
  | here type =>
      obtain ⟨fuel, rfl⟩ : ∃ rest, fuel = rest + 1 := ⟨fuel - 1, by omega⟩
      cases shows with
      | use arguments =>
          rw [viewWithin, if_pos rfl]
          rfl
      | array element isAbove =>
          rw [viewWithin, if_pos isAbove]
          rfl
  | @up steps type above last noArray member _ inductionHypothesis =>
      obtain ⟨fuel, rfl⟩ : ∃ rest, fuel = rest + 1 := ⟨fuel - 1, by omega⟩
      have found : (catalog.viewWithin target fuel above).isSome = true :=
        inductionHypothesis shows (by omega)
      cases isOpen : type.isTypeVariable || type.isWildcard with
      | true =>
          obtain ⟨sameView, sameAbove, _⟩ := viewWithin_of_isOpen catalog target isOpen fuel
          rw [sameAbove] at member
          rw [sameView, ← List.mem_singleton.mp member]
          exact found
      | false =>
          cases type with
          | classType id arguments =>
              rw [viewWithin]
              split
              · rfl
              · exact List.findSome?_isSome_iff.mpr ⟨above, member, found⟩
          | array element =>
              cases noArray
          | primitive kind =>
              cases member
          | null =>
              cases member
          | _ =>
              cases isOpen

/-- An ascent through an array can stop there, provided that an array has no other classes above it
than those above all arrays. -/
theorem Ascends.exists_climbs
    (ascent : catalog.Ascends steps type last) (shows : catalog.ShowsAs target last view)
    (arrays : ∀ less element, catalog.Ascends less (.array element) last →
      catalog.isAboveArrays target = true) :
    ∃ less highest shown, less ≤ steps ∧ catalog.Climbs less type highest ∧
      catalog.ShowsAs target highest shown := by
  induction ascent with
  | here type =>
      exact ⟨0, type, view, Nat.le_refl 0, .here type, shows⟩
  | @up steps type above last member ascent inductionHypothesis =>
      cases isArray : type.isArray with
      | true =>
          cases type with
          | array element =>
              have isAbove := arrays (steps + 1) element (.up member ascent)
              exact ⟨0, _, _, Nat.zero_le _, .here _, .array element isAbove⟩
          | _ =>
              cases isArray
      | false =>
          obtain ⟨less, highest, shown, within, climb, shows⟩ := inductionHypothesis shows arrays
          exact ⟨less + 1, highest, shown, Nat.succ_le_succ within, .up isArray member climb, shows⟩

/-- The search finds a view wherever an ascent within its limit leads to one, provided that an array
has no other classes above it than those above all arrays. -/
theorem isSome_viewWithin_of_ascends
    (ascent : catalog.Ascends steps type last) (shows : catalog.ShowsAs target last view)
    (arrays : ∀ less element, catalog.Ascends less (.array element) last →
      catalog.isAboveArrays target = true)
    (less : steps < fuel) :
    (catalog.viewWithin target fuel type).isSome = true := by
  obtain ⟨fewer, highest, shown, within, climb, shows⟩ := ascent.exists_climbs shows arrays
  exact isSome_viewWithin_of_climbs climb shows (Nat.lt_of_le_of_lt within less)

end Search

/-! ## Above the arrays -/

/-- The classes above all arrays have nothing above them but the root class. -/
def CapsArrays (catalog : Catalog) : Prop :=
  ∀ id, catalog.isAboveArrays id = true →
    ∀ above ∈ catalog.immediateSupertypes (.raw id), above = catalog.objectType

/-- An array, or a class above all arrays. -/
def IsArrayLike (catalog : Catalog) (type : Ty) : Prop :=
  type.isArray = true ∨ ∃ id, type = .raw id ∧ catalog.isAboveArrays id = true

theorem isArrayLike_object (catalog : Catalog) : catalog.IsArrayLike catalog.objectType :=
  Or.inr ⟨catalog.core.object, rfl, by simp [isAboveArrays]⟩

section Arrays

variable {catalog : Catalog} {steps : Nat} {type last : Ty}

/-- An ascent from an array stays with the arrays and the classes above all arrays. -/
theorem CapsArrays.isArrayLike_of_ascends
    (caps : catalog.CapsArrays) (ascent : catalog.Ascends steps type last)
    (arrayLike : catalog.IsArrayLike type) :
    catalog.IsArrayLike last := by
  induction ascent with
  | here type =>
      exact arrayLike
  | @up steps type above last member _ inductionHypothesis =>
      apply inductionHypothesis
      rcases arrayLike with isArray | ⟨id, rfl, isAbove⟩
      · cases type with
        | array element =>
            have cases : above = catalog.objectType ∨ above = .raw catalog.core.cloneable ∨
                above = .raw catalog.core.serializable := by
              simpa [immediateSupertypes] using member
            rcases cases with rfl | rfl | rfl
            · exact isArrayLike_object catalog
            · exact Or.inr ⟨_, rfl, by simp [isAboveArrays]⟩
            · exact Or.inr ⟨_, rfl, by simp [isAboveArrays]⟩
        | _ =>
            cases isArray
      · rw [caps id isAbove above member]
        exact isArrayLike_object catalog

theorem CapsArrays.isAboveArrays_of_ascends
    {target : DefinitionId} {element view : Ty} (caps : catalog.CapsArrays)
    (shows : catalog.ShowsAs target last view)
    (ascent : catalog.Ascends steps (.array element) last) :
    catalog.isAboveArrays target = true := by
  have arrayLike : catalog.IsArrayLike last :=
    caps.isArrayLike_of_ascends ascent (Or.inl rfl)
  cases shows with
  | use arguments =>
      rcases arrayLike with isArray | ⟨other, same, isAbove⟩
      · cases isArray
      · cases same
        exact isAbove
  | array element isAbove =>
      exact isAbove

end Arrays

/-! ## Registered catalogs -/

/-- A catalog that comes from the catalog of the language by registering definitions and members.
What a definition mentions need not be registered, and definitions may derive from each other. -/
inductive Registered : Catalog → Prop
  | standard : Registered .standard
  | insertWith {catalog : Catalog} (build : DefinitionId → Definition) :
      Registered catalog → Registered (catalog.insertWith build).2
  | insertMember {catalog : Catalog} (id : DefinitionId) (member : Member) :
      Registered catalog → Registered (catalog.insertMember id member).2

/-- A catalog has a definition with the given parameters and declared supertypes. -/
def Declares (catalog : Catalog) (id : DefinitionId) (declared : Definition) : Prop :=
  ∃ found, catalog.definition? id = some found ∧ found.parameters = declared.parameters ∧
    found.base = declared.base ∧ found.interfaces = declared.interfaces

section Registration

variable {catalog : Catalog} {id : DefinitionId} {declared : Definition}

theorem Declares.insertWith
    (declares : catalog.Declares id declared)
    (unused : catalog.contains catalog.nextId = false) (build : DefinitionId → Definition) :
    (catalog.insertWith build).2.Declares id declared := by
  obtain ⟨found, isFound, same⟩ := declares
  refine ⟨found, ?_, same⟩
  have old : id ≠ catalog.nextId := by
    rintro rfl
    rw [contains, isFound] at unused
    cases unused
  rw [definition?_insertWith, if_neg old, isFound]

theorem Declares.insertMember
    (declares : catalog.Declares id declared) (owner : DefinitionId) (member : Member) :
    (catalog.insertMember owner member).2.Declares id declared := by
  obtain ⟨found, isFound, same⟩ := declares
  rw [Declares, definition?_insertMember, isFound]
  split
  · exact ⟨found.withMember member, rfl, same⟩
  · exact ⟨found, rfl, same⟩

theorem Registered.exists_recounts (registered : catalog.Registered) :
    ∃ history, catalog.Recounts history := by
  induction registered with
  | standard =>
      exact ⟨_, recounts_standard_after []⟩
  | insertWith build _ inductionHypothesis =>
      obtain ⟨history, recounts⟩ := inductionHypothesis
      exact ⟨_, recounts.apply (.insertWith build)⟩
  | insertMember owner member _ inductionHypothesis =>
      obtain ⟨history, recounts⟩ := inductionHypothesis
      exact ⟨_, recounts.apply (.insertMember owner member)⟩

/-- Registration leaves the definitions of the language as they are, their members apart. -/
theorem Registered.declares
    (registered : catalog.Registered) (found : Catalog.standard.definition? id = some declared) :
    catalog.Declares id declared := by
  induction registered with
  | standard =>
      exact ⟨declared, found, rfl, rfl, rfl⟩
  | insertWith build registered inductionHypothesis =>
      obtain ⟨history, recounts⟩ := registered.exists_recounts
      exact inductionHypothesis.insertWith recounts.contains_nextId build
  | insertMember owner member _ inductionHypothesis =>
      exact inductionHypothesis.insertMember owner member

theorem Registered.core (registered : catalog.Registered) : catalog.core = .standard := by
  induction registered with
  | standard =>
      rfl
  | insertWith build _ inductionHypothesis =>
      exact inductionHypothesis
  | insertMember owner member _ inductionHypothesis =>
      rw [Catalog.insertMember]
      split
      · exact inductionHypothesis
      · exact inductionHypothesis

/-- Registration puts nothing above the classes above all arrays. -/
theorem Registered.capsArrays (registered : catalog.Registered) : catalog.CapsArrays := by
  intro id isAbove above member
  rw [Ty.raw, immediateSupertypes] at member
  by_cases isObject : id = catalog.core.object
  · rw [classSupertypes, if_pos isObject] at member
    cases member
  · have isStandard : id = ⟨3⟩ ∨ id = ⟨2⟩ := by
      rw [isAboveArrays, registered.core, Bool.or_eq_true, Bool.or_eq_true, beq_iff_eq, beq_iff_eq,
        beq_iff_eq] at isAbove
      rw [registered.core] at isObject
      rcases isAbove with (same | same) | same
      · exact absurd same isObject
      · exact Or.inl same
      · exact Or.inr same
    have bare : ∃ declared, Catalog.standard.definition? id = some declared ∧
        declared.parameters = [] ∧ declared.base = none ∧ declared.interfaces = [] := by
      rcases isStandard with rfl | rfl
      · exact ⟨_, rfl, rfl, rfl, rfl⟩
      · exact ⟨_, rfl, rfl, rfl, rfl⟩
    obtain ⟨declared, standard, noParameters, noBase, noInterfaces⟩ := bare
    obtain ⟨found, isFound, parameters, base, interfaces⟩ := registered.declares standard
    have notGeneric : found.isGeneric = false := by
      rw [Definition.isGeneric, parameters, noParameters]
      rfl
    have onlyObject : found.supertypes catalog.objectType = [catalog.objectType] := by
      rw [Definition.supertypes, base, noBase, interfaces, noInterfaces]
      rfl
    simp only [classSupertypes, if_neg isObject, isFound, notGeneric, onlyObject] at member
    exact List.mem_singleton.mp member

end Registration

/-! ## The search -/

/-- On every catalog, whatever derives from what, a type has a view as a class if and only if an
ascent within the limit leads from the type to a use of the class, or to an array if the class is
above all arrays, and climbs out of no array. The view is what the end of such an ascent shows. An
ascent may as well climb out of arrays if the classes above all arrays have only the root class
above them. The search always ends, because it is a recursion on the number of steps that are
left. -/
theorem isSome_viewAs?_iff_climbs (catalog : Catalog) (type : Ty) (target : DefinitionId) :
    ((catalog.viewAs? type target).isSome = true ↔
      ∃ steps last view, steps ≤ supertypeLimit ∧ catalog.Climbs steps type last ∧
        catalog.ShowsAs target last view) ∧
    (∀ view, catalog.viewAs? type target = some view →
      ∃ steps last, steps ≤ supertypeLimit ∧ catalog.Climbs steps type last ∧
        catalog.ShowsAs target last view) ∧
    (catalog.CapsArrays →
      ((catalog.viewAs? type target).isSome = true ↔
        ∃ steps last view, steps ≤ supertypeLimit ∧ catalog.Ascends steps type last ∧
          catalog.ShowsAs target last view)) := by
  have sound (view : Ty) (found : catalog.viewAs? type target = some view) :
      ∃ steps last, steps ≤ supertypeLimit ∧ catalog.Climbs steps type last ∧
        catalog.ShowsAs target last view := by
    obtain ⟨steps, last, less, climb, shows⟩ := exists_climbs_of_viewWithin found
    exact ⟨steps, last, Nat.le_of_lt_succ less, climb, shows⟩
  have climbs : (catalog.viewAs? type target).isSome = true ↔
      ∃ steps last view, steps ≤ supertypeLimit ∧ catalog.Climbs steps type last ∧
        catalog.ShowsAs target last view := by
    constructor
    · intro isSome
      obtain ⟨view, found⟩ := Option.isSome_iff_exists.mp isSome
      obtain ⟨steps, last, within, climb, shows⟩ := sound view found
      exact ⟨steps, last, view, within, climb, shows⟩
    · rintro ⟨steps, last, view, within, climb, shows⟩
      exact isSome_viewWithin_of_climbs climb shows (Nat.lt_succ_of_le within)
  refine ⟨climbs, sound, fun caps => ⟨fun isSome => ?_, ?_⟩⟩
  · obtain ⟨steps, last, view, within, climb, shows⟩ := climbs.mp isSome
    exact ⟨steps, last, view, within, climb.ascends, shows⟩
  · rintro ⟨steps, last, view, within, ascent, shows⟩
    apply isSome_viewWithin_of_ascends ascent shows
    · intro less element ascent
      exact caps.isAboveArrays_of_ascends shows ascent
    · exact Nat.lt_succ_of_le within

/-- A catalog with two interfaces that extend each other. The second one also extends a definition
that is not registered. -/
def cyclic : Catalog :=
  let left := fun _ => { Definition.ofInterface "Left" with interfaces := [.raw ⟨16⟩] }
  let right := fun _ => { Definition.ofInterface "Right" with interfaces := [.raw ⟨15⟩, .raw ⟨99⟩] }
  ((Catalog.standard.insertWith left).2.insertWith right).2

/-- The search ends on inheritance cycles, and it still finds what the catalog only mentions. -/
theorem isSome_viewAs?_iff_climbs_of_cyclic :
    cyclic.CapsArrays ∧
      ((cyclic.viewAs? (.array (.raw ⟨15⟩)) ⟨2⟩).isSome = true ↔
        ∃ steps last view, steps ≤ supertypeLimit ∧
          cyclic.Ascends steps (.array (.raw ⟨15⟩)) last ∧ cyclic.ShowsAs ⟨2⟩ last view) ∧
      ∃ steps last, steps ≤ supertypeLimit ∧ cyclic.Climbs steps (.raw ⟨15⟩) last ∧
        cyclic.ShowsAs ⟨99⟩ last (.raw ⟨99⟩) := by
  have registered : cyclic.Registered := (Registered.standard.insertWith _).insertWith _
  refine ⟨registered.capsArrays,
    (isSome_viewAs?_iff_climbs cyclic _ _).2.2 registered.capsArrays, ?_⟩
  apply (isSome_viewAs?_iff_climbs cyclic _ _).2.1
  rfl

/-- A catalog that takes another interface for the one of cloneable objects. This one extends an
interface in turn. -/
def tagged : Catalog :=
  let cloneable := { Definition.ofInterface "java/lang/Cloneable" with interfaces := [.raw ⟨15⟩] }
  let loaded := ((Catalog.standard.insert (.ofInterface "Tag")).2.insert cloneable).2
  { loaded with core := { loaded.core with cloneable := ⟨16⟩ } }

/-- The standard classes and an interface that is registered under the name of one of them. -/
def reloaded : Catalog :=
  (Catalog.standard.insert (.ofInterface "java/lang/Cloneable")).2

/-- Two steps lead from an array to an interface that the cloneable arrays have above them, but the
search does not take them. Neither does it find the interface that a name above all arrays leads to:
the classes above all arrays are the ones that the catalog knows by their identifiers. -/
theorem isSome_viewAs?_iff_ascends_fails :
    (¬ ∀ (catalog : Catalog) (type : Ty) (target : DefinitionId),
      (catalog.viewAs? type target).isSome = true ↔
        ∃ steps last view, steps ≤ supertypeLimit ∧ catalog.Ascends steps type last ∧
          catalog.ShowsAs target last view) ∧
    reloaded.lookup? "java/lang/Cloneable" = some ⟨15⟩ ∧
      reloaded.viewAs? (.array (.primitive .int)) ⟨15⟩ = none := by
  refine ⟨fun law => ?_, rfl, rfl⟩
  have lost : tagged.viewAs? (.array (.primitive .int)) ⟨15⟩ = none := rfl
  have toCloneable : .raw ⟨16⟩ ∈ tagged.immediateSupertypes (.array (.primitive .int)) :=
    List.mem_cons_of_mem _ List.mem_cons_self
  have toTag : .raw ⟨15⟩ ∈ tagged.immediateSupertypes (.raw ⟨16⟩) :=
    List.mem_cons_of_mem tagged.objectType List.mem_cons_self
  have found := (law tagged (.array (.primitive .int)) ⟨15⟩).mpr
    ⟨2, .raw ⟨15⟩, .raw ⟨15⟩, by decide, .up toCloneable (.up toTag (.here _)), .use []⟩
  rw [lost] at found
  cases found

end Catalog

end TypedJava
