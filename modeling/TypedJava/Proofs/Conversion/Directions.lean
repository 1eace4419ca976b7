import TypedJava.Proofs.Conversion.Castable

/-! # Casts in both directions

Whether one reference type can be cast to another does not depend on the direction. The rules for
subtypes and for interfaces ask both ways, but the rule for the root class asks only one way, and the
rule for arrays asks one way before it goes on to the elements. What makes up for this is that every
positive answer about classes shows in the erasures, and that the erasures decide both ways. -/

namespace TypedJava

namespace Catalog

section Directions

variable {catalog : Catalog} {bounds : VarId → Option Ty} {target source : Ty}

theorem mayImplement_comm (target source : Ty) :
    catalog.mayImplement target source = catalog.mayImplement source target := by
  rw [mayImplement, mayImplement]
  cases target.definition?.bind catalog.definition? <;>
    cases source.definition?.bind catalog.definition? <;>
    simp only [Bool.or_comm]

theorem Castable.symm (castable : catalog.Castable target source) :
    catalog.Castable source target := by
  rcases castable with above | below | mayImplement
  · exact Or.inr (Or.inl above)
  · exact Or.inl below
  · rw [mayImplement_comm] at mayImplement
    exact Or.inr (Or.inr mayImplement)

/-- Null converts to every reference type. -/
theorem conversion_null_ne_none (targetIsReference : target.isReference = true) :
    catalog.conversion target .null ≠ .none := by
  rw [conversion.eq_def]
  cases target with
  | primitive kind => cases targetIsReference
  | null => simp
  | _ => exact fun impossible => by cases impossible

/-- Arrays that are no subtypes only convert if their elements are references that do. -/
theorem elements_of_betweenReferences_array
    {element other : Ty} (notBelow : ¬ catalog.isSubtype (.array other) (.array element) = true)
    (converts : catalog.betweenReferences (.array element) (.array other) ≠ .none) :
    element.isPrimitive = false ∧ other.isPrimitive = false ∧
      catalog.betweenReferences element other ≠ .none := by
  rw [betweenReferences, if_neg notBelow] at converts
  split at converts
  · exact absurd rfl converts
  · rename_i notPrimitive
    rw [Bool.or_eq_true, not_or, Bool.not_eq_true, Bool.not_eq_true] at notPrimitive
    refine ⟨notPrimitive.1, notPrimitive.2, fun noElements => converts ?_⟩
    rw [noElements]

section Swap

variable (declares : catalog.DeclaresClasses)

include declares

/-- References with castable erasures convert into each other, the null type included. -/
theorem conversion_ne_none_of_castable
    (targetRegular : target.Regular bounds) (sourceRegular : source.Regular bounds)
    (targetIsReference : target.isReference = true) (isReference : source.isReference = true)
    (castable : catalog.Castable (target.erase catalog) (source.erase catalog)) :
    catalog.conversion target source ≠ .none := by
  cases source with
  | null => exact conversion_null_ne_none targetIsReference
  | _ =>
      exact conversion_ne_none_of_betweenReferences targetIsReference isReference rfl
        (betweenReferences_ne_none declares targetRegular sourceRegular castable)

theorem betweenReferences_of_betweenClasses_swap
    (targetRegular : target.Regular bounds) (sourceRegular : source.Regular bounds)
    (isReference : source.isReference = true)
    (converts : catalog.betweenClasses target source ≠ .none) :
    catalog.betweenReferences source target ≠ .none := by
  have castable : catalog.Castable (target.erase catalog) (source.erase catalog) :=
    castable_of_betweenClasses declares targetRegular sourceRegular isReference converts
  exact betweenReferences_ne_none declares sourceRegular targetRegular castable.symm

/-- What converts between references converts back. The induction is on the array dimensions: at
each of them either the array types are subtypes, which shows in their erasures, or the elements
convert. -/
theorem betweenReferences_swap
    (targetRegular : target.Regular bounds) (sourceRegular : source.Regular bounds)
    (isReference : source.isReference = true)
    (converts : catalog.betweenReferences target source ≠ .none) :
    catalog.betweenReferences source target ≠ .none := by
  induction target using Ty.spineInduction generalizing source with
  | array element inductionHypothesis =>
      cases source with
      | array other =>
          by_cases below : catalog.isSubtype (.array other) (.array element) = true
          · have castable : catalog.Castable ((Ty.array element).erase catalog)
                ((Ty.array other).erase catalog) :=
              Or.inr (Or.inl (sourceRegular.isSubtypeWithin_erase declares targetRegular below))
            exact betweenReferences_ne_none declares sourceRegular targetRegular castable.symm
          · obtain ⟨notPrimitive, otherNotPrimitive, elementsConvert⟩ :=
              elements_of_betweenReferences_array below converts
            have otherIsReference : other.isReference = true :=
              sourceRegular.element.isReference_of_not_isPrimitive otherNotPrimitive
            exact betweenReferences_array_ne_none otherNotPrimitive notPrimitive
              (inductionHypothesis targetRegular.element sourceRegular.element otherIsReference
                elementsConvert)
      | _ =>
          rw [betweenReferences_eq (Or.inr rfl)] at converts
          exact betweenReferences_of_betweenClasses_swap declares targetRegular sourceRegular
            isReference converts
  | _ =>
      rw [betweenReferences_eq (Or.inl rfl)] at converts
      exact betweenReferences_of_betweenClasses_swap declares targetRegular sourceRegular
        isReference converts

theorem conversion_swap
    (targetRegular : target.Regular bounds) (sourceRegular : source.Regular bounds)
    (targetIsReference : target.isReference = true) (isReference : source.isReference = true)
    (converts : catalog.conversion target source ≠ .none) :
    catalog.conversion source target ≠ .none := by
  cases same : (target == source) with
  | true =>
      have sameErasure : target.erase catalog = source.erase catalog :=
        targetRegular.grounded.erase_eq sourceRegular.grounded same
      have castable : catalog.Castable (source.erase catalog) (target.erase catalog) := by
        rw [sameErasure]
        exact Or.inl (isSubtypeWithin_self _ _)
      exact conversion_ne_none_of_castable declares sourceRegular targetRegular isReference
        targetIsReference castable
  | false =>
      cases sourceNull : source.isNull with
      | true =>
          have nullBelow : catalog.isSubtype .null (target.erase catalog) = true :=
            isSubtypeWithin_null (targetRegular.isReference_erase targetIsReference) _
          cases source with
          | null =>
              exact conversion_ne_none_of_castable declares sourceRegular targetRegular isReference
                targetIsReference (Or.inl nullBelow)
          | _ => cases sourceNull
      | false =>
          rw [conversion_eq_betweenReferences same targetIsReference isReference sourceNull]
            at converts
          have convertsBack : catalog.betweenReferences source target ≠ .none :=
            betweenReferences_swap declares targetRegular sourceRegular isReference converts
          cases target with
          | null => exact conversion_null_ne_none isReference
          | _ =>
              exact conversion_ne_none_of_betweenReferences isReference targetIsReference rfl
                convertsBack

end Swap

end Directions

/-- A cast between two reference types is illegal in one direction exactly if it is illegal in the
other. Variables of one identity carry the same bound in both types, as one table of bounds has it;
bounds are references and values are the only primitives. Nothing is asked of the arguments of class
types, or of the height of the hierarchy. -/
theorem conversion_eq_none_comm
    {catalog : Catalog} (declares : catalog.DeclaresClasses) {bounds : VarId → Option Ty}
    {target source : Ty} (targetRegular : target.Regular bounds)
    (sourceRegular : source.Regular bounds) (targetIsReference : target.isReference = true)
    (isReference : source.isReference = true) :
    catalog.conversion target source = .none ↔ catalog.conversion source target = .none := by
  apply Decidable.not_iff_not.mp
  exact ⟨conversion_swap declares targetRegular sourceRegular targetIsReference isReference,
    conversion_swap declares sourceRegular targetRegular isReference targetIsReference⟩

/-- Two-dimensional arrays of crates and of a variable. If the variable is bounded by the final class
of strings, neither converts to the other; if it is bounded by an interface, both do. -/
theorem conversion_eq_none_comm_of_crates :
    let matrix (element : Ty) : Ty := .array (.array element)
    let crate : Ty := matrix (.raw ⟨16⟩)
    let text : Ty := matrix (.typeVariable ⟨"S", none⟩ (some (.raw ⟨6⟩)))
    let stored : Ty := matrix (.typeVariable ⟨"V", none⟩ (some (.raw ⟨2⟩)))
    crates.DeclaresClasses ∧ crates.conversion text crate = .none ∧
      crates.conversion crate text = .none ∧ crates.conversion stored crate = .explicit ∧
      crates.conversion crate stored ≠ .none := by
  intro matrix crate text stored
  have declares : crates.DeclaresClasses := .of_all (by decide +kernel)
  let bounds (id : VarId) : Option Ty :=
    if id = ⟨"S", none⟩ then some (.raw ⟨6⟩)
    else if id = ⟨"V", none⟩ then some (.raw ⟨2⟩)
    else none
  have crateRegular : crate.Regular bounds := trivial
  have textRegular : text.Regular bounds := ⟨rfl, rfl, trivial⟩
  have storedRegular : stored.Regular bounds := ⟨rfl, rfl, trivial⟩
  have textToCrate := conversion_eq_none_comm declares textRegular crateRegular rfl rfl
  have crateToStored := conversion_eq_none_comm declares crateRegular storedRegular rfl rfl
  have illegal : crates.conversion text crate = .none := by decide +kernel
  have legal : crates.conversion stored crate = .explicit := by decide +kernel
  refine ⟨declares, illegal, textToCrate.mp illegal, legal, mt crateToStored.mp ?_⟩
  simp [legal]

end Catalog

end TypedJava
