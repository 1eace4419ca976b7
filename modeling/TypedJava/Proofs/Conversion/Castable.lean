import TypedJava.Conversion
import TypedJava.Proofs.Conversion.Erasure
import TypedJava.TypeSyntax

/-! # Casts and written types

Whether one reference type can be cast to another is a matter of their erasures. Writing a type
without wildcards keeps its erasure, except that the null type becomes the root class. So a cast that
is legal stays legal when its type is written, unless the null type hides under so many array
dimensions that the subtype relation gives up. -/

namespace TypedJava

theorem Conversion.ne_none_of_isExplicit
    {conversion : Conversion} (isExplicit : conversion.isExplicit = true) : conversion ≠ .none := by
  rintro rfl
  cases isExplicit

namespace Catalog

section Questions

variable {catalog : Catalog} {target source : Ty}

theorem isSubtypeWithin_self (type : Ty) (fuel : Nat) :
    catalog.isSubtypeWithin (fuel + 1) type type = true :=
  isSubtypeWithin_of_beq BEq.rfl fuel

theorem betweenClasses_of_isSubtype (below : catalog.isSubtype source target = true) :
    catalog.betweenClasses target source = .implicit := by
  rw [betweenClasses, if_pos below, ite_self]

theorem betweenReferences_of_isSubtype (below : catalog.isSubtype source target = true) :
    catalog.betweenReferences target source = .implicit := by
  cases target with
  | array element =>
      cases source with
      | array other =>
          rw [betweenReferences, if_pos below]
      | _ =>
          exact betweenClasses_of_isSubtype below
  | _ =>
      exact betweenClasses_of_isSubtype below

/-- Between unequal references other than the null type only classes and arrays matter. -/
theorem conversion_eq_betweenReferences
    (different : (target == source) = false) (targetIsReference : target.isReference = true)
    (isReference : source.isReference = true) (notNull : source.isNull = false) :
    catalog.conversion target source = catalog.betweenReferences target source := by
  rw [conversion.eq_def, different, if_neg Bool.false_ne_true]
  cases target with
  | primitive kind =>
      cases targetIsReference
  | _ =>
      cases source with
      | primitive kind =>
          cases isReference
      | null =>
          cases notNull
      | _ =>
          rfl

theorem conversion_ne_none_of_betweenReferences
    (targetIsReference : target.isReference = true) (isReference : source.isReference = true)
    (notNull : source.isNull = false) (converts : catalog.betweenReferences target source ≠ .none) :
    catalog.conversion target source ≠ .none := by
  cases same : (target == source) with
  | true =>
      simp [conversion.eq_def, same]
  | false =>
      rw [conversion_eq_betweenReferences same targetIsReference isReference notNull]
      exact converts

theorem conversion_eq_boxing (targetIsReference : target.isReference = true) (kind : JvmKind) :
    catalog.conversion target (.primitive kind) = catalog.boxing target kind := by
  cases target with
  | primitive kind =>
      cases targetIsReference
  | _ =>
      rfl

/-- A cast to a reference type either boxes values or is one between references. -/
theorem boxing_or_betweenReferences
    (targetIsReference : target.isReference = true)
    (needsCast : (catalog.conversion target source).isExplicit = true) :
    (∃ kind, source = .primitive kind ∧ (catalog.boxing target kind).isExplicit = true) ∨
      (source.isReference = true ∧ source.isNull = false ∧
        (catalog.betweenReferences target source).isExplicit = true) := by
  have different : (target == source) = false := by
    cases same : (target == source) with
    | false =>
        rfl
    | true =>
        rw [conversion.eq_def, if_pos same] at needsCast
        cases needsCast
  cases source with
  | primitive kind =>
      rw [conversion_eq_boxing targetIsReference] at needsCast
      exact Or.inl ⟨kind, rfl, needsCast⟩
  | null =>
      rw [conversion.eq_def, different, if_neg Bool.false_ne_true] at needsCast
      simp only [targetIsReference, if_true] at needsCast
      cases needsCast
  | _ =>
      rw [conversion_eq_betweenReferences different targetIsReference rfl rfl] at needsCast
      exact Or.inr ⟨rfl, rfl, needsCast⟩

/-- Values that can be cast to one box class can be cast to every use of it. -/
theorem boxing_ne_none
    {other : Ty} {kind : JvmKind} (same : catalog.unboxedKind? other = catalog.unboxedKind? target)
    (needsCast : (catalog.boxing target kind).isExplicit = true) :
    catalog.boxing other kind ≠ .none := by
  rw [boxing] at needsCast ⊢
  cases boxed : catalog.boxOf? kind with
  | none =>
      rw [boxed] at needsCast
      cases needsCast
  | some box =>
      simp only [boxed, same] at needsCast ⊢
      split
      · simp
      · split at needsCast
        · cases needsCast
        · exact Conversion.ne_none_of_isExplicit needsCast

/-- Values only need a cast to box classes. -/
theorem exists_definition_of_boxing
    {kind : JvmKind} (needsCast : (catalog.boxing target kind).isExplicit = true) :
    ∃ definition arguments, target = .classType definition arguments := by
  rw [boxing] at needsCast
  cases target with
  | classType definition arguments =>
      exact ⟨definition, arguments, rfl⟩
  | _ =>
      simp only [unboxedKind?, Ty.definition?, Option.bind_none] at needsCast
      split at needsCast
      · cases needsCast
      · split at needsCast <;> cases needsCast

end Questions

/-- One of two erased types can be cast to the other. -/
def Castable (catalog : Catalog) (target source : Ty) : Prop :=
  catalog.isSubtype target source = true ∨ catalog.isSubtype source target = true ∨
    catalog.mayImplement target source = true

section Castable

variable {catalog : Catalog} {bounds : VarId → Option Ty} {target source : Ty}

theorem castable_of_betweenClasses
    (declares : catalog.DeclaresClasses) (targetRegular : target.Regular bounds)
    (sourceRegular : source.Regular bounds) (isReference : source.isReference = true)
    (converts : catalog.betweenClasses target source ≠ .none) :
    catalog.Castable (target.erase catalog) (source.erase catalog) := by
  by_cases isObject : (target.definition? == some catalog.core.object) = true
  · have belowObject : catalog.isSubtype (source.erase catalog) catalog.objectType = true :=
      (Ty.erased_erase catalog source).isSubtypeWithin_object
        (sourceRegular.isReference_erase isReference) supertypeLimit
    cases target with
    | classType id arguments =>
        cases eq_of_beq isObject
        exact Or.inr (Or.inl belowObject)
    | _ =>
        cases isObject
  by_cases below : catalog.isSubtype source target = true
  · exact Or.inr (Or.inl (sourceRegular.isSubtypeWithin_erase declares targetRegular below))
  by_cases above : catalog.isSubtype target source = true
  · exact Or.inl (targetRegular.isSubtypeWithin_erase declares sourceRegular above)
  rw [betweenClasses, if_neg isObject, if_neg below, if_neg above] at converts
  simp only at converts
  split at converts
  · rename_i erased
    rcases Bool.or_eq_true_iff.mp erased with erasedAbove | erasedBelow
    · exact Or.inl erasedAbove
    · exact Or.inr (Or.inl erasedBelow)
  · split at converts
    · rename_i mayImplement
      exact Or.inr (Or.inr mayImplement)
    · exact absurd rfl converts

theorem betweenClasses_ne_none
    (castable : catalog.Castable (target.erase catalog) (source.erase catalog)) :
    catalog.betweenClasses target source ≠ .none := by
  by_cases isObject : (target.definition? == some catalog.core.object) = true
  · simp [betweenClasses, isObject]
  by_cases below : catalog.isSubtype source target = true
  · simp [betweenClasses, isObject, below]
  by_cases above : catalog.isSubtype target source = true
  · simp [betweenClasses, isObject, below, above]
  rw [betweenClasses, if_neg isObject, if_neg below, if_neg above]
  rcases castable with erasedAbove | erasedBelow | mayImplement
  · simp [erasedAbove]
  · simp [erasedBelow]
  · simp [mayImplement]

theorem betweenReferences_eq (notArrays : target.isArray = false ∨ source.isArray = false) :
    catalog.betweenReferences target source = catalog.betweenClasses target source := by
  cases target with
  | array element =>
      cases source with
      | array other =>
          rcases notArrays with impossible | impossible <;> cases impossible
      | _ =>
          rfl
  | _ =>
      rfl

theorem betweenReferences_array_ne_none
    {element other : Ty} (notPrimitive : element.isPrimitive = false)
    (otherNotPrimitive : other.isPrimitive = false)
    (converts : catalog.betweenReferences element other ≠ .none) :
    catalog.betweenReferences (.array element) (.array other) ≠ .none := by
  rw [betweenReferences]
  split
  · simp
  · simp only [notPrimitive, otherNotPrimitive, Bool.or_self, Bool.false_eq_true, if_false]
    split
    · contradiction
    all_goals simp

/-- Arrays only need a cast if their elements do. -/
theorem isExplicit_of_betweenReferences_array
    {element other : Ty}
    (needsCast : (catalog.betweenReferences (.array element) (.array other)).isExplicit = true) :
    element.isPrimitive = false ∧ other.isPrimitive = false ∧
      (catalog.betweenReferences element other).isExplicit = true := by
  rw [betweenReferences] at needsCast
  split at needsCast
  · cases needsCast
  · split at needsCast
    · cases needsCast
    · rename_i notPrimitive
      rw [Bool.or_eq_true, not_or, Bool.not_eq_true, Bool.not_eq_true] at notPrimitive
      refine ⟨notPrimitive.1, notPrimitive.2, ?_⟩
      cases elements : catalog.betweenReferences element other <;> rw [elements] at needsCast <;>
        first | rfl | cases needsCast

/-- What can be cast between arrays can be cast between their elements. -/
theorem Castable.of_array
    {element other : Ty} (declares : catalog.DeclaresClasses) (erased : element.Erased)
    (otherErased : other.Erased) (castable : catalog.Castable (.array element) (.array other)) :
    element = other ∨
      element.isPrimitive = false ∧ other.isPrimitive = false ∧ catalog.Castable element other := by
  rcases castable with above | below | mayImplement
  · cases subtypeStep above with
    | same same =>
        have sameElements : (element == other) = true := same
        exact Or.inl (erased.eq_of_beq sameElements)
    | ceiling isOpen _ _ =>
        cases isOpen
    | elements notPrimitive otherNotPrimitive elementAbove =>
        have elements := erased.isSubtypeWithin_succ declares otherErased elementAbove
        exact Or.inr ⟨notPrimitive, otherNotPrimitive, Or.inl elements⟩
  · cases subtypeStep below with
    | same same =>
        have sameElements : (other == element) = true := same
        exact Or.inl (otherErased.eq_of_beq sameElements).symm
    | ceiling isOpen _ _ =>
        cases isOpen
    | elements otherNotPrimitive notPrimitive elementBelow =>
        have elements := otherErased.isSubtypeWithin_succ declares erased elementBelow
        exact Or.inr ⟨notPrimitive, otherNotPrimitive, Or.inr (Or.inl elements)⟩
  · cases mayImplement

/-- References with castable erasures can be cast. -/
theorem betweenReferences_ne_none
    (declares : catalog.DeclaresClasses) (targetRegular : target.Regular bounds)
    (sourceRegular : source.Regular bounds)
    (castable : catalog.Castable (target.erase catalog) (source.erase catalog)) :
    catalog.betweenReferences target source ≠ .none := by
  induction target using Ty.spineInduction generalizing source with
  | array element inductionHypothesis =>
      cases source with
      | array other =>
          by_cases below : catalog.isSubtype (.array other) (.array element) = true
          · simp [betweenReferences_of_isSubtype below]
          have elementRegular := targetRegular.element
          have otherRegular := sourceRegular.element
          -- Different elements can have one erasure, so equal erasures do not end the induction.
          rcases castable.of_array declares (Ty.erased_erase catalog element)
              (Ty.erased_erase catalog other) with same | ⟨notPrimitive, otherNotPrimitive, elements⟩
          · have samePrimitive : other.isPrimitive = element.isPrimitive := by
              rw [← elementRegular.isPrimitive_erase, same, otherRegular.isPrimitive_erase]
            cases primitive : element.isPrimitive with
            | true =>
                cases element with
                | primitive kind =>
                    rw [otherRegular.eq_primitive_of_erase same.symm] at below
                    exact absurd (isSubtypeWithin_self _ _) below
                | _ =>
                    cases primitive
            | false =>
                rw [primitive] at samePrimitive
                have elements : catalog.Castable (element.erase catalog) (other.erase catalog) := by
                  rw [same]
                  exact Or.inl (isSubtypeWithin_self _ _)
                exact betweenReferences_array_ne_none primitive samePrimitive
                  (inductionHypothesis elementRegular otherRegular elements)
          · rw [elementRegular.isPrimitive_erase] at notPrimitive
            rw [otherRegular.isPrimitive_erase] at otherNotPrimitive
            exact betweenReferences_array_ne_none notPrimitive otherNotPrimitive
              (inductionHypothesis elementRegular otherRegular elements)
      | _ =>
          rw [betweenReferences_eq (Or.inr rfl)]
          exact betweenClasses_ne_none castable
  | _ =>
      rw [betweenReferences_eq (Or.inl rfl)]
      exact betweenClasses_ne_none castable

end Castable

end Catalog

namespace Ty

/-- The number of array dimensions of a type. -/
def rank : Ty → Nat
  | array element => rank element + 1
  | upperWildcard upper => rank upper
  | _ => 0

/-- What is under the array dimensions of a type. -/
def innermost : Ty → Ty
  | array element => innermost element
  | upperWildcard upper => innermost upper
  | type => type

/-- The null type gives way to the root class under a number of array dimensions. -/
inductive Opens (catalog : Catalog) : (rank : Nat) → Ty → Ty → Prop
  | null : Opens catalog 0 null catalog.objectType
  | array {rank : Nat} {element opened : Ty} :
      Opens catalog rank element opened → Opens catalog (rank + 1) (array element) (array opened)

section Written

variable {catalog : Catalog} {bounds : VarId → Option Ty} {options : TypeSyntaxOptions}
  {target source opened : Ty}

theorem Opens.isReference_eq {rank : Nat} (opens : Opens catalog rank target opened) :
    target.isReference = true ∧ opened.isReference = true := by
  cases opens with
  | null =>
      exact ⟨rfl, rfl⟩
  | array _ =>
      exact ⟨rfl, rfl⟩

/-- What stands beside the null type under some array dimensions stands beside the root class under
them, as long as the steps suffice for the dimensions. -/
theorem Opens.isSubtypeWithin
    {rank fuel : Nat} (opens : Opens catalog rank target opened) (enough : rank < fuel)
    (erased : source.Erased)
    (either : catalog.isSubtypeWithin fuel source target = true ∨
      catalog.isSubtypeWithin fuel target source = true) :
    catalog.isSubtypeWithin fuel source opened = true ∨
      catalog.isSubtypeWithin fuel opened source = true := by
  have isReference : source.isReference = true := by
    rcases either with below | above
    · rw [Catalog.isReference_eq_of_isSubtypeWithin below, opens.isReference_eq.1]
    · rw [← Catalog.isReference_eq_of_isSubtypeWithin above, opens.isReference_eq.1]
  induction opens generalizing fuel source with
  | null =>
      obtain ⟨fuel, rfl⟩ : ∃ less, fuel = less + 1 := ⟨fuel - 1, by omega⟩
      exact Or.inl (erased.isSubtypeWithin_object isReference fuel)
  | @array rank element opened opens inductionHypothesis =>
      -- One step for this dimension, and at least one for what is below it.
      obtain ⟨fuel, rfl⟩ : ∃ less, fuel = less + 2 := ⟨fuel - 2, by omega⟩
      cases erased with
      | primitive kind =>
          cases isReference
      | null =>
          exact Or.inl (Catalog.isSubtypeWithin_null rfl _)
      | raw definition =>
          refine Or.inr ?_
          rcases either with below | above
          · cases Catalog.subtypeStep below with
            | same same =>
                cases same
            | ceiling isOpen _ _ =>
                cases isOpen
          · cases Catalog.subtypeStep above with
            | same same =>
                cases same
            | ceiling isOpen _ _ =>
                cases isOpen
            | aboveArrays isAbove =>
                exact Catalog.isSubtypeWithin_aboveArrays isAbove _ _ _
      | @array other otherErased =>
          have elements : catalog.isSubtypeWithin (fuel + 1) other element = true ∨
              catalog.isSubtypeWithin (fuel + 1) element other = true :=
            either.imp Catalog.isSubtypeWithin_of_array Catalog.isSubtypeWithin_of_array
          have otherIsReference : other.isReference = true := by
            rcases elements with below | above
            · rw [Catalog.isReference_eq_of_isSubtypeWithin below, opens.isReference_eq.1]
            · rw [← Catalog.isReference_eq_of_isSubtypeWithin above, opens.isReference_eq.1]
          have notPrimitive := isPrimitive_eq_false otherIsReference
          have openedNotPrimitive := isPrimitive_eq_false opens.isReference_eq.2
          refine (inductionHypothesis (by omega) otherErased elements otherIsReference).imp ?_ ?_
          · exact Catalog.isSubtypeWithin_array notPrimitive openedNotPrimitive
          · exact Catalog.isSubtypeWithin_array openedNotPrimitive notPrimitive

/-- Without wildcards a written type has the same erasure, unless the null type is in it. -/
theorem erase_writable
    (noWildcards : options.allowWildcards = false) (topLevel : Bool) (target : Ty) :
    (target.writable catalog options topLevel).erase catalog = target.erase catalog ∨
      target.innermost = .null ∧ Opens catalog target.rank (target.erase catalog)
        ((target.writable catalog options topLevel).erase catalog) := by
  induction target using spineInduction generalizing topLevel with
  | primitive kind =>
      exact Or.inl rfl
  | classType definition arguments =>
      rw [writable]
      split <;> exact Or.inl rfl
  | openVariable id =>
      exact Or.inl rfl
  | boundVariable id bound _ =>
      exact Or.inl rfl
  | unboundedWildcard =>
      rw [writable, noWildcards]
      exact Or.inl rfl
  | upperWildcard upper inductionHypothesis =>
      rw [writable, noWildcards]
      exact inductionHypothesis topLevel
  | lowerWildcard lower =>
      rw [writable, noWildcards]
      exact Or.inl rfl
  | array element inductionHypothesis =>
      rw [writable, erase, erase]
      rcases inductionHypothesis false with same | ⟨isNull, opens⟩
      · exact Or.inl (by rw [same])
      · exact Or.inr ⟨isNull, .array opens⟩
  | null =>
      exact Or.inr ⟨rfl, .null⟩

theorem Regular.isReference_writable
    (noWildcards : options.allowWildcards = false) (topLevel : Bool)
    (regular : target.Regular bounds) (isReference : target.isReference = true) :
    (target.writable catalog options topLevel).isReference = true := by
  induction target using spineInduction with
  | primitive kind =>
      cases isReference
  | classType definition arguments =>
      rw [writable]
      split <;> rfl
  | unboundedWildcard =>
      rw [writable, noWildcards]
      rfl
  | upperWildcard upper inductionHypothesis =>
      rw [writable, noWildcards]
      exact inductionHypothesis regular.2 regular.1
  | lowerWildcard lower =>
      rw [writable, noWildcards]
      rfl
  | _ =>
      rfl

theorem Regular.writable
    (noWildcards : options.allowWildcards = false) (topLevel : Bool)
    (regular : target.Regular bounds) :
    (target.writable catalog options topLevel).Regular bounds := by
  induction target using spineInduction generalizing topLevel with
  | classType definition arguments =>
      rw [Ty.writable]
      split <;> exact trivial
  | unboundedWildcard =>
      rw [Ty.writable, noWildcards]
      exact trivial
  | upperWildcard upper inductionHypothesis =>
      rw [Ty.writable, noWildcards]
      exact inductionHypothesis topLevel regular.2
  | lowerWildcard lower =>
      rw [Ty.writable, noWildcards]
      exact trivial
  | array element inductionHypothesis =>
      exact inductionHypothesis false regular.element
  | null =>
      exact trivial
  | _ =>
      exact regular

theorem Opens.mayImplement_eq_false
    {rank : Nat} (opens : Opens catalog rank target opened) (source : Ty) :
    catalog.mayImplement target source = false := by
  cases opens <;> rfl

/-- What can be cast to a type can be cast to the written type. -/
theorem castable_writable
    (noWildcards : options.allowWildcards = false) (topLevel : Bool)
    (shallowNull : target.innermost = .null → target.rank ≤ supertypeLimit)
    (castable : catalog.Castable (target.erase catalog) (source.erase catalog)) :
    catalog.Castable ((target.writable catalog options topLevel).erase catalog)
      (source.erase catalog) := by
  rcases erase_writable noWildcards topLevel target with same | ⟨isNull, opens⟩
  · rw [same]
    exact castable
  · -- Every dimension takes a step and the root class below them takes the last one.
    have enough : target.rank < supertypeLimit + 1 := by
      have most := shallowNull isNull
      omega
    have either : catalog.isSubtype (source.erase catalog) (target.erase catalog) = true ∨
        catalog.isSubtype (target.erase catalog) (source.erase catalog) = true := by
      rcases castable with above | below | mayImplement
      · exact Or.inr above
      · exact Or.inl below
      · rw [opens.mayImplement_eq_false] at mayImplement
        cases mayImplement
    rcases opens.isSubtypeWithin enough (erased_erase catalog source) either with below | above
    · exact Or.inr (Or.inl below)
    · exact Or.inl above

section Legal

variable (declares : catalog.DeclaresClasses) (noWildcards : options.allowWildcards = false)
  (shallowNull : target.innermost = .null → target.rank ≤ supertypeLimit)

include declares noWildcards shallowNull

private theorem betweenReferences_writable_of_betweenClasses
    (topLevel : Bool) (regular : target.Regular bounds) (sourceRegular : source.Regular bounds)
    (isReference : source.isReference = true)
    (converts : catalog.betweenClasses target source ≠ .none) :
    catalog.betweenReferences (target.writable catalog options topLevel) source ≠ .none := by
  have castable := Catalog.castable_of_betweenClasses declares regular sourceRegular isReference
    converts
  have writtenCastable : catalog.Castable
      ((target.writable catalog options topLevel).erase catalog) (source.erase catalog) :=
    castable_writable noWildcards topLevel shallowNull castable
  exact Catalog.betweenReferences_ne_none declares (regular.writable noWildcards topLevel)
    sourceRegular writtenCastable

/-- A cast between references stays legal when its type is written. -/
theorem betweenReferences_writable_ne_none
    (topLevel : Bool) (regular : target.Regular bounds) (sourceRegular : source.Regular bounds)
    (isReference : source.isReference = true)
    (needsCast : (catalog.betweenReferences target source).isExplicit = true) :
    catalog.betweenReferences (target.writable catalog options topLevel) source ≠ .none := by
  induction target using spineInduction generalizing source topLevel with
  | array element inductionHypothesis =>
      cases source with
      | array other =>
          obtain ⟨notPrimitive, otherNotPrimitive, elementsNeedCast⟩ :=
            Catalog.isExplicit_of_betweenReferences_array needsCast
          have elementShallow : element.innermost = .null → element.rank ≤ supertypeLimit := by
            intro isNull
            have most : element.rank + 1 ≤ supertypeLimit := shallowNull isNull
            omega
          have elementIsReference :=
            regular.element.isReference_of_not_isPrimitive notPrimitive
          have otherIsReference :=
            sourceRegular.element.isReference_of_not_isPrimitive otherNotPrimitive
          have elements := inductionHypothesis elementShallow false regular.element
            sourceRegular.element otherIsReference elementsNeedCast
          have writtenIsReference : (element.writable catalog options false).isReference = true :=
            regular.element.isReference_writable noWildcards false elementIsReference
          rw [writable]
          exact Catalog.betweenReferences_array_ne_none (isPrimitive_eq_false writtenIsReference)
            otherNotPrimitive elements
      | _ =>
          rw [Catalog.betweenReferences_eq (Or.inr rfl)] at needsCast
          exact betweenReferences_writable_of_betweenClasses declares noWildcards shallowNull
            topLevel regular sourceRegular isReference (Conversion.ne_none_of_isExplicit needsCast)
  | _ =>
      rw [Catalog.betweenReferences_eq (Or.inl rfl)] at needsCast
      exact betweenReferences_writable_of_betweenClasses declares noWildcards shallowNull
        topLevel regular sourceRegular isReference (Conversion.ne_none_of_isExplicit needsCast)

omit declares noWildcards shallowNull in
/-- A cast of values to a box class stays legal when its type is written. -/
private theorem boxing_writable_ne_none
    (topLevel : Bool) {kind : JvmKind} (needsCast : (catalog.boxing target kind).isExplicit = true) :
    catalog.boxing (target.writable catalog options topLevel) kind ≠ .none := by
  obtain ⟨definition, arguments, rfl⟩ := Catalog.exists_definition_of_boxing needsCast
  refine Catalog.boxing_ne_none ?_ needsCast
  rw [writable]
  split <;> rfl

/-- A cast stays legal when its type is written. -/
theorem conversion_writable_ne_none
    (topLevel : Bool) (regular : target.isReference = true → target.Regular bounds)
    (sourceRegular : source.Regular bounds)
    (needsCast : (catalog.conversion target source).isExplicit = true) :
    catalog.conversion (target.writable catalog options topLevel) source ≠ .none := by
  cases isReference : target.isReference with
  | false =>
      cases target with
      | primitive kind =>
          exact Conversion.ne_none_of_isExplicit needsCast
      | _ =>
          cases isReference
  | true =>
      have writtenIsReference : (target.writable catalog options topLevel).isReference = true :=
        (regular isReference).isReference_writable noWildcards topLevel isReference
      rcases Catalog.boxing_or_betweenReferences isReference needsCast with
        ⟨kind, rfl, boxes⟩ | ⟨sourceIsReference, notNull, needsCast⟩
      · rw [Catalog.conversion_eq_boxing writtenIsReference]
        exact boxing_writable_ne_none topLevel boxes
      · have written := betweenReferences_writable_ne_none declares noWildcards shallowNull topLevel
          (regular isReference) sourceRegular sourceIsReference needsCast
        exact Catalog.conversion_ne_none_of_betweenReferences writtenIsReference sourceIsReference
          notNull written

end Legal

/-! ### Casts of objects -/

theorem writable_objectType (topLevel : Bool) :
    (catalog.objectType).writable catalog options topLevel = catalog.objectType := by
  rw [Catalog.objectType, raw, writable]
  split <;> rfl

/-- Objects unbox to every type of values. -/
theorem unboxing_object_ne_none
    (notBoxed : catalog.isBoxed catalog.objectType = false) {kind : JvmKind}
    (isPrimitive : kind.isPrimitive = true) :
    catalog.unboxing kind catalog.objectType ≠ .none := by
  have noBox : catalog.unboxedKind? catalog.objectType = none :=
    Option.isNone_iff_eq_none.mp (Option.isSome_eq_false_iff.mp notBoxed)
  obtain ⟨box, boxed⟩ := catalog.exists_boxOf? isPrimitive
  have below : catalog.isSubtype (.raw box) (catalog.objectType.erase catalog) = true :=
    (Erased.raw box).isSubtypeWithin_object rfl supertypeLimit
  rw [Catalog.unboxing, isPrimitive, noBox, boxed]
  simp [below]

/-- Objects can be cast to every type. -/
theorem Regular.conversion_object_ne_none
    (notBoxed : catalog.isBoxed catalog.objectType = false) (regular : target.Regular bounds) :
    catalog.conversion target catalog.objectType ≠ .none := by
  cases isReference : target.isReference with
  | false =>
      cases target with
      | primitive kind =>
          exact unboxing_object_ne_none notBoxed regular
      | _ =>
          cases isReference
  | true =>
      have belowObject : catalog.isSubtype (target.erase catalog) catalog.objectType = true :=
        (erased_erase catalog target).isSubtypeWithin_object
          (regular.isReference_erase isReference) supertypeLimit
      have castable : catalog.Castable (target.erase catalog) (catalog.objectType.erase catalog) :=
        Or.inl belowObject
      have converts : catalog.betweenReferences target catalog.objectType ≠ .none := by
        rw [Catalog.betweenReferences_eq (Or.inr rfl)]
        exact Catalog.betweenClasses_ne_none castable
      exact Catalog.conversion_ne_none_of_betweenReferences isReference rfl rfl converts

end Written

end Ty

end TypedJava
