import TypedJava.Proofs.Conversion.Erasure
import TypedJava.Proofs.Supertypes.Ascent

/-! # Subtypes of raw classes

A class type is a subtype of a raw class if the search for its view as the class finds one. The
question about subtypes has used up a step when it starts the search, the question for the view has
not. So the two agree but for the classes that only the last step of the search reaches. -/

namespace TypedJava

namespace Catalog

/-- An ascent of a number of steps leads from a type to what shows as an instance of a class. -/
def Reaches (catalog : Catalog) (target : DefinitionId) (steps : Nat) (type : Ty) : Prop :=
  ∃ last view, catalog.Ascends steps type last ∧ catalog.ShowsAs target last view

variable {catalog : Catalog} {target : DefinitionId} {type view : Ty} {fuel : Nat}

theorem Registered.isSome_viewWithin_iff (registered : catalog.Registered) :
    (catalog.viewWithin target fuel type).isSome = true ↔
      ∃ steps, steps < fuel ∧ catalog.Reaches target steps type := by
  constructor
  · intro isSome
    obtain ⟨view, found⟩ := Option.isSome_iff_exists.mp isSome
    obtain ⟨steps, last, less, ascent, shows⟩ := exists_ascends_of_viewWithin found
    exact ⟨steps, less, last, view, ascent, shows⟩
  · rintro ⟨steps, less, last, view, ascent, shows⟩
    refine isSome_viewWithin_of_ascends ascent shows (fun _ element ascent => ?_) less
    exact registered.capsArrays.isAboveArrays_of_ascends shows ascent

/-- Below a raw class are the class types with a view as the class, found with one step less than a
view may take. -/
theorem isSubtype_raw_eq_isSome_viewWithin
    (notRoot : target ≠ catalog.core.object) (id : DefinitionId) (arguments : List Ty) :
    catalog.isSubtype (.classType id arguments) (.raw target) =
      (catalog.viewWithin target supertypeLimit (.classType id arguments)).isSome := by
  cases found : catalog.viewWithin target supertypeLimit (.classType id arguments) with
  | some view =>
      obtain ⟨actuals, rfl⟩ := exists_of_viewWithin found
      exact isSubtypeWithin_of_viewWithin found (Or.inl rfl)
  | none =>
      -- A use of the class itself would be its own view.
      have other : id ≠ target := by
        rintro rfl
        rw [show supertypeLimit = 63 + 1 from rfl, viewWithin, if_pos rfl] at found
        cases found
      have differs : (Ty.classType id arguments == Ty.classType target []) = false := by
        change Ty.same _ _ = false
        simp [Ty.same, other]
      rw [isSubtype, Ty.raw, isSubtypeWithin.eq_def]
      simp [differs, notRoot, found]

/-- Whoever is below a raw class has a view as the class. The converse holds for a class type if and
only if no ascent to the class takes as many steps as the limit allows, or a shorter one leads there
as well. -/
theorem isSubtype_raw_eq_viewAs?_iff
    {catalog : Catalog} (registered : catalog.Registered) (id : DefinitionId)
    (arguments : List Ty) {target : DefinitionId} (notRoot : target ≠ catalog.core.object) :
    (catalog.isSubtype (.classType id arguments) (.raw target) = true →
      (catalog.viewAs? (.classType id arguments) target).isSome = true) ∧
    (((catalog.viewAs? (.classType id arguments) target).isSome = true ↔
        catalog.isSubtype (.classType id arguments) (.raw target) = true) ↔
      (catalog.Reaches target supertypeLimit (.classType id arguments) →
        ∃ steps, steps < supertypeLimit ∧
          catalog.Reaches target steps (.classType id arguments))) := by
  rw [isSubtype_raw_eq_isSome_viewWithin notRoot, viewAs?, registered.isSome_viewWithin_iff,
    registered.isSome_viewWithin_iff]
  constructor
  · rintro ⟨steps, less, reaches⟩
    exact ⟨steps, Nat.lt_succ_of_lt less, reaches⟩
  · constructor
    · intro agree reaches
      exact agree.mp ⟨supertypeLimit, Nat.lt_succ_self _, reaches⟩
    · intro shorter
      constructor
      · rintro ⟨steps, less, reaches⟩
        rcases Nat.lt_succ_iff_lt_or_eq.mp less with within | rfl
        · exact ⟨steps, within, reaches⟩
        · exact shorter reaches
      · rintro ⟨steps, less, reaches⟩
        exact ⟨steps, Nat.lt_succ_of_lt less, reaches⟩

/-- Interfaces in a row, each of which extends the one before. The first one has number 15. -/
def row : Nat → Catalog
  | 0 => (Catalog.standard.insert (.ofInterface "Link0")).2
  | length + 1 =>
    ((row length).insert { Definition.ofInterface ("Link" ++ toString (length + 1)) with
      interfaces := [.raw ⟨length + 15⟩] }).2

theorem registered_row (length : Nat) : (row length).Registered := by
  induction length with
  | zero =>
      exact .insertWith _ .standard
  | succ length inductionHypothesis =>
      exact .insertWith _ inductionHypothesis

theorem isSome_viewAs?_row : ((row 64).viewAs? (.raw ⟨79⟩) ⟨15⟩).isSome = true := by
  decide +kernel

theorem isSubtype_row : (row 64).isSubtype (.raw ⟨79⟩) (.raw ⟨15⟩) = false := by
  decide +kernel

theorem object_row (length : Nat) : (⟨15⟩ : DefinitionId) ≠ (row length).core.object := by
  rw [(registered_row length).core]
  decide

/-- The two answers differ for the interface at the end of a row of 65, so that the first one is no
closer to it than the limit allows. -/
theorem isSubtype_raw_eq_viewAs?_iff_of_row :
    (row 64).Registered ∧ (⟨15⟩ : DefinitionId) ≠ (row 64).core.object ∧
      (row 64).Reaches ⟨15⟩ supertypeLimit (.raw ⟨79⟩) ∧
      ¬ ∃ steps, steps < supertypeLimit ∧ (row 64).Reaches ⟨15⟩ steps (.raw ⟨79⟩) := by
  have decided := (isSubtype_raw_eq_viewAs?_iff (registered_row 64) ⟨79⟩ [] (object_row 64)).2
  have differ : ¬ (((row 64).viewAs? (.raw ⟨79⟩) ⟨15⟩).isSome = true ↔
      (row 64).isSubtype (.raw ⟨79⟩) (.raw ⟨15⟩) = true) := by
    rw [isSome_viewAs?_row, isSubtype_row]
    decide
  exact ⟨registered_row 64, object_row 64, Classical.not_imp.mp (mt decided.mpr differ)⟩

/-- The last interface of the row has a view as the first one, and is none of its subtypes. -/
theorem isSubtype_raw_ne_viewAs? :
    ¬ ∀ (catalog : Catalog) (id : DefinitionId) (arguments : List Ty) (target : DefinitionId),
      catalog.Registered → target ≠ catalog.core.object →
      ((catalog.viewAs? (.classType id arguments) target).isSome = true ↔
        catalog.isSubtype (.classType id arguments) (.raw target) = true) := by
  intro agree
  have accepted := (agree (row 64) ⟨79⟩ [] ⟨15⟩ (registered_row 64) (object_row 64)).mp
    isSome_viewAs?_row
  exact absurd (isSubtype_row.symm.trans accepted) Bool.false_ne_true

end Catalog

end TypedJava
