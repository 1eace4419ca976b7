import TypedJava.Proofs.Subtyping.Views

/-! # Steps between proper types

A positive answer about two applied types that are no wildcards rests on one of six reasons. With
more fuel the answer stays positive. -/

namespace TypedJava

/-- The least type above everything that an argument may stand for. -/
def Catalog.argumentCeiling (catalog : Catalog) (argument : Ty) : Ty :=
  if argument.isWildcard then catalog.ceiling argument else argument

/-- The greatest type below everything that an argument may stand for. -/
def Ty.argumentFloor? : Ty → Option Ty
  | lowerWildcard lower => some lower
  | unboundedWildcard | upperWildcard _ => none
  | type => some type

/-- Does a wildcard contain an argument? -/
def Catalog.wildcardContains (catalog : Catalog) (isSubtype : Ty → Ty → Bool) (formal actual : Ty) :
    Bool :=
  match formal with
  | .unboundedWildcard => true
  | .upperWildcard upper => isSubtype (catalog.argumentCeiling actual) upper
  | .lowerWildcard lower => actual.argumentFloor?.any (isSubtype lower)
  | _ => false

namespace Catalog

/-- An applied type whose variables carry the bounds of a table. -/
structure IsProper (catalog : Catalog) (exposed : VarId → Bool) (bounds : VarId → Option Ty)
    (mayBeWildcard : Bool) (type : Ty) : Prop where
  applied : catalog.isApplied exposed mayBeWildcard type = true
  boundBy : type.BoundBy bounds

/-! ## Containment -/

section Containment

variable {catalog : Catalog}

theorem containsArgument_eq (isSubtype : Ty → Ty → Bool) (formal actual : Ty) :
    catalog.containsArgument isSubtype formal actual =
      (formal == actual || catalog.wildcardContains isSubtype formal actual) := by
  cases formal <;> cases actual <;> rfl

theorem wildcardContains_of_not_isWildcard
    {isSubtype : Ty → Ty → Bool} {formal actual : Ty} (notWildcard : formal.isWildcard = false) :
    catalog.wildcardContains isSubtype formal actual = false := by
  cases formal with
  | unboundedWildcard => cases notWildcard
  | upperWildcard upper => cases notWildcard
  | lowerWildcard lower => cases notWildcard
  | _ => rfl

theorem containsArguments_iff_forall₂
    {isSubtype : Ty → Ty → Bool} {formals actuals : List Ty}
    (sameLength : formals.length = actuals.length) :
    catalog.containsArguments isSubtype formals actuals = true ↔
      List.Forall₂ (fun formal actual => catalog.containsArgument isSubtype formal actual = true)
        formals actuals := by
  have all : (∀ pair ∈ formals.zip actuals,
        catalog.containsArgument isSubtype pair.1 pair.2 = true) ↔
      List.Forall₂ (fun formal actual => catalog.containsArgument isSubtype formal actual = true)
        formals actuals := by
    rw [List.forall₂_iff_zip]
    exact ⟨fun all => ⟨sameLength, fun zipped => all _ zipped⟩, fun all pair => all.2⟩
  rw [← all, ← List.all_eq_true, containsArguments]
  cases formals with
  | nil => simp
  | cons formal formals =>
      cases actuals with
      | nil => cases sameLength
      | cons actual actuals => simp [← sameLength]

end Containment

/-! ## Proper types -/

section Proper

variable {catalog : Catalog} {exposed : VarId → Bool} {bounds : VarId → Option Ty}
  {mayBeWildcard : Bool} {id target : DefinitionId} {arguments : List Ty} {type argument : Ty}

theorem IsProper.length_arguments
    (proper : catalog.IsProper exposed bounds mayBeWildcard (.classType id arguments)) :
    arguments.length = (catalog.parameterIds id).length :=
  (areApplied_iff.mp proper.applied).length_eq.symm

theorem IsProper.of_mem
    (proper : catalog.IsProper exposed bounds mayBeWildcard (.classType id arguments))
    (member : argument ∈ arguments) :
    catalog.IsProper exposed bounds true argument where
  applied := isApplied_of_mem proper.applied member
  boundBy mention mentioned := proper.boundBy mention (Ty.mem_mentionsList member mentioned)

theorem IsProper.upper
    (proper : catalog.IsProper exposed bounds mayBeWildcard (.upperWildcard type)) :
    catalog.IsProper exposed bounds false type :=
  ⟨(Bool.and_eq_true_iff.mp proper.applied).2, proper.boundBy⟩

theorem IsProper.lower
    (proper : catalog.IsProper exposed bounds mayBeWildcard (.lowerWildcard type)) :
    catalog.IsProper exposed bounds false type :=
  ⟨(Bool.and_eq_true_iff.mp proper.applied).2, proper.boundBy⟩

theorem IsProper.element
    (proper : catalog.IsProper exposed bounds mayBeWildcard (.array type))
    (notPrimitive : type.isPrimitive = false) :
    catalog.IsProper exposed bounds false type := by
  have applied : (type.isPrimitive || catalog.isApplied exposed false type) = true := proper.applied
  rw [notPrimitive, Bool.false_or] at applied
  exact ⟨applied, proper.boundBy⟩

theorem IsProper.of_ascends
    (proper : catalog.IsProper exposed bounds false (.classType id arguments))
    (exposes : catalog.Exposes exposed) (declares : catalog.DeclaresUses) {last : Ty} {steps : Nat}
    (ascent : catalog.Ascends steps (.classType id arguments) last) :
    catalog.IsProper exposed bounds false last where
  applied := exposes.isApplied_of_ascends declares proper.applied ascent
  boundBy mention mentioned := by
    have use := isUse_of_arity proper.length_arguments
    exact proper.boundBy mention ((declares.isUse_of_ascends use ascent).2 mentioned)

/-- The classes above all arrays have no parameters. -/
theorem Registered.parameterIds_eq_nil
    (registered : catalog.Registered) (isAbove : catalog.isAboveArrays id = true) :
    catalog.parameterIds id = [] := by
  have isStandard : id = ⟨1⟩ ∨ id = ⟨3⟩ ∨ id = ⟨2⟩ := by
    simpa [isAboveArrays, registered.core, CoreClasses.standard, or_assoc] using isAbove
  have bare : ∃ declared, Catalog.standard.definition? id = some declared ∧
      declared.parameters = [] := by
    rcases isStandard with rfl | rfl | rfl
    · exact ⟨_, rfl, rfl⟩
    · exact ⟨_, rfl, rfl⟩
    · exact ⟨_, rfl, rfl⟩
  obtain ⟨declared, standard, noParameters⟩ := bare
  obtain ⟨found, isFound, parameters, _⟩ := registered.declares standard
  rw [parameterIds, isFound, Option.elim_some, Definition.parameterIds, parameters, noParameters,
    List.map_nil]

theorem Registered.isProper_objectType (registered : catalog.Registered) :
    catalog.IsProper exposed bounds false catalog.objectType where
  applied := by
    have isAbove : catalog.isAboveArrays catalog.core.object = true := by simp [isAboveArrays]
    rw [objectType, Ty.raw, isApplied, registered.parameterIds_eq_nil isAbove, areApplied]
  boundBy mention mentioned := by cases mentioned

/-- The bounds that variables may carry are proper themselves. -/
def HasProperBounds (catalog : Catalog) (exposed : VarId → Bool) (bounds : VarId → Option Ty) :
    Prop :=
  ∀ id bound, bounds id = some bound → catalog.IsProper exposed bounds false bound

theorem IsProper.ceiling
    {variableId : VarId} {bound : Option Ty}
    (proper : catalog.IsProper exposed bounds mayBeWildcard (.typeVariable variableId bound))
    (registered : catalog.Registered) (table : catalog.HasProperBounds exposed bounds) :
    catalog.IsProper exposed bounds false (catalog.ceiling (.typeVariable variableId bound)) := by
  cases bound with
  | none => exact registered.isProper_objectType
  | some bound => exact table variableId bound (proper.boundBy _ (List.mem_singleton_self _))

theorem IsProper.argumentCeiling
    (proper : catalog.IsProper exposed bounds true argument) (registered : catalog.Registered) :
    catalog.IsProper exposed bounds false (catalog.argumentCeiling argument) := by
  cases argument with
  | unboundedWildcard => exact registered.isProper_objectType
  | upperWildcard upper => exact proper.upper
  | lowerWildcard lower => exact registered.isProper_objectType
  | _ => exact ⟨proper.applied, proper.boundBy⟩

theorem IsProper.argumentFloor
    (proper : catalog.IsProper exposed bounds true argument) {floor : Ty}
    (found : argument.argumentFloor? = some floor) :
    catalog.IsProper exposed bounds false floor := by
  cases argument with
  | unboundedWildcard => cases found
  | upperWildcard upper => cases found
  | lowerWildcard lower =>
      cases found
      exact proper.lower
  | _ =>
      cases found
      exact ⟨proper.applied, proper.boundBy⟩

/-- A proper type that stands for its bound is a variable. -/
theorem IsProper.eq_typeVariable
    (proper : catalog.IsProper exposed bounds false type)
    (isOpen : (type.isTypeVariable || type.isWildcard) = true) :
    ∃ variableId bound, type = .typeVariable variableId bound := by
  cases type with
  | typeVariable variableId bound => exact ⟨variableId, bound, rfl⟩
  | unboundedWildcard => cases proper.applied
  | upperWildcard upper => cases proper.applied
  | lowerWildcard lower => cases proper.applied
  | _ => cases isOpen

theorem isWildcard_of_isApplied (applied : catalog.isApplied exposed false type = true) :
    type.isWildcard = false := by
  cases type with
  | unboundedWildcard => cases applied
  | upperWildcard upper => cases applied
  | lowerWildcard lower => cases applied
  | _ => rfl

/-- What a use contains argument by argument, its views contain argument by argument. -/
theorem IsProper.exists_view_of_contains
    {isSubtype : Ty → Ty → Bool} {formals view : List Ty} {steps : Nat}
    (formalsProper : catalog.IsProper exposed bounds false (.classType id formals))
    (exposes : catalog.Exposes exposed) (declares : catalog.DeclaresUses)
    (actualsProper : catalog.IsProper exposed bounds false (.classType id arguments))
    (contains : List.Forall₂ (fun formal actual =>
      catalog.containsArgument isSubtype formal actual = true) formals arguments)
    (ascent : catalog.Ascends steps (.classType id formals) (.classType target view)) :
    ∃ otherView, catalog.Ascends steps (.classType id arguments) (.classType target otherView) ∧
      List.Forall₂ (fun formal actual =>
        catalog.containsArgument isSubtype formal actual = true) view otherView := by
  let Related (formal actual : Ty) : Prop :=
    catalog.containsArgument isSubtype formal actual = true ∧
      (formal.isWildcard = false → formal = actual)
  have refl (type : Ty) : Related type type :=
    ⟨by rw [containsArgument_eq, beq_self_eq_true, Bool.true_or], fun _ => rfl⟩
  have rigid (formal actual : Ty) (related : Related formal actual)
      (applied : catalog.isApplied exposed false formal = true) : formal = actual :=
    related.2 (isWildcard_of_isApplied applied)
  have related : List.Forall₂ Related formals arguments := by
    rw [List.forall₂_iff_zip] at contains ⊢
    refine ⟨contains.1, fun {formal actual} zipped => ⟨contains.2 zipped, fun notWildcard => ?_⟩⟩
    have contained := contains.2 zipped
    rw [containsArgument_eq, wildcardContains_of_not_isWildcard notWildcard, Bool.or_false]
      at contained
    exact (formalsProper.of_mem (List.of_mem_zip zipped).1).boundBy.eq_of_beq
      (actualsProper.of_mem (List.of_mem_zip zipped).2).boundBy contained
  obtain ⟨otherView, otherAscent, viewsRelated⟩ := exposes.exists_ascends_of_forall₂ declares refl
    rigid formalsProper.applied related ascent
  exact ⟨otherView, otherAscent, viewsRelated.imp fun _ _ related => related.1⟩

theorem containsArgument_of_imp
    {isSubtype isBelow : Ty → Ty → Bool} (registered : catalog.Registered)
    (implies : ∀ type base, catalog.IsProper exposed bounds false type →
      catalog.IsProper exposed bounds false base → isSubtype type base = true →
      isBelow type base = true)
    {formal actual : Ty} (formalProper : catalog.IsProper exposed bounds true formal)
    (actualProper : catalog.IsProper exposed bounds true actual)
    (contains : catalog.containsArgument isSubtype formal actual = true) :
    catalog.containsArgument isBelow formal actual = true := by
  rw [containsArgument_eq, Bool.or_eq_true] at contains ⊢
  rcases contains with same | contains
  · exact Or.inl same
  refine Or.inr ?_
  cases formal with
  | unboundedWildcard => rfl
  | upperWildcard upper =>
      exact implies _ _ (actualProper.argumentCeiling registered) formalProper.upper contains
  | lowerWildcard lower =>
      obtain ⟨floor, found, below⟩ := (Option.any_eq_true _ _).mp contains
      exact (Option.any_eq_true _ _).mpr
        ⟨floor, found, implies _ _ formalProper.lower (actualProper.argumentFloor found) below⟩
  | _ => cases contains

end Proper

/-! ## Steps -/

/-- What the first step of a positive answer about proper types rests on. -/
inductive ReferenceStep (catalog : Catalog) (fuel : Nat) : Ty → Ty → Prop
  | same (type : Ty) : ReferenceStep catalog fuel type type
  | ceiling {id : VarId} {bound : Option Ty} {base : Ty} :
      catalog.isSubtypeWithin fuel (catalog.ceiling (.typeVariable id bound)) base = true →
      ReferenceStep catalog fuel (.typeVariable id bound) base
  | elements {element other : Ty} :
      element.isPrimitive = false → other.isPrimitive = false →
      catalog.isSubtypeWithin fuel element other = true →
      ReferenceStep catalog fuel (.array element) (.array other)
  | aboveArrays {id : DefinitionId} (element : Ty) (arguments : List Ty) :
      catalog.isAboveArrays id = true →
      ReferenceStep catalog fuel (.array element) (.classType id arguments)
  | object (id : DefinitionId) (arguments formals : List Ty) :
      ReferenceStep catalog fuel (.classType id arguments) (.classType catalog.core.object formals)
  | view {id target : DefinitionId} {arguments formals actuals : List Ty} {steps : Nat} :
      steps < fuel → catalog.Ascends steps (.classType id arguments) (.classType target actuals) →
      List.Forall₂ (fun formal actual =>
        catalog.containsArgument (catalog.isSubtypeWithin fuel) formal actual = true)
        formals actuals →
      ReferenceStep catalog fuel (.classType id arguments) (.classType target formals)

section Fuel

variable {catalog : Catalog} {exposed : VarId → Bool} {bounds : VarId → Option Ty}
  {type base : Ty} {fuel more : Nat}
  (registered : catalog.Registered) (orderly : catalog.Orderly)
  (exposes : catalog.Exposes exposed) (table : catalog.HasProperBounds exposed bounds)

theorem isSubtypeWithin_of_view
    {id target : DefinitionId} {arguments formals actuals : List Ty}
    (viewed : catalog.viewWithin target fuel (.classType id arguments) =
      some (.classType target actuals))
    (contains : List.Forall₂ (fun formal actual =>
      catalog.containsArgument (catalog.isSubtypeWithin fuel) formal actual = true)
      formals actuals) :
    catalog.isSubtypeWithin (fuel + 1) (.classType id arguments) (.classType target formals) =
      true := by
  rw [isSubtypeWithin.eq_def, Bool.or_eq_true]
  simp only [viewed, (containsArguments_iff_forall₂ contains.length_eq).mpr contains, Bool.or_true]
  exact Or.inr trivial

include orderly exposes in
theorem IsProper.referenceStep
    (typeProper : catalog.IsProper exposed bounds false type)
    (baseProper : catalog.IsProper exposed bounds false base)
    (below : catalog.isSubtypeWithin (fuel + 1) type base = true) :
    catalog.ReferenceStep fuel type base := by
  cases subtypeStep below with
  | same same =>
      rw [typeProper.boundBy.eq_of_beq baseProper.boundBy same]
      exact .same base
  | null _ => cases typeProper.applied
  | unbounded _ => cases baseProper.applied
  | upper _ _ => cases baseProper.applied
  | lower _ _ => cases baseProper.applied
  | ceiling isOpen _ ceilingBelow =>
      obtain ⟨id, bound, rfl⟩ := typeProper.eq_typeVariable isOpen
      exact .ceiling ceilingBelow
  | elements notPrimitive baseNotPrimitive elementBelow =>
      exact .elements notPrimitive baseNotPrimitive elementBelow
  | aboveArrays isAbove => exact .aboveArrays _ _ isAbove
  | object => exact .object _ _ _
  | view viewed contains =>
      obtain ⟨steps, less, ascent⟩ :=
        orderly.declaresUses.exists_ascends (isUse_of_arity typeProper.length_arguments) viewed
      have viewProper := typeProper.of_ascends exposes orderly.declaresUses ascent
      have sameLength := baseProper.length_arguments.trans viewProper.length_arguments.symm
      exact .view less ascent ((containsArguments_iff_forall₂ sameLength).mp contains)

include registered orderly in
theorem IsProper.isSubtypeWithin_of_step
    (typeProper : catalog.IsProper exposed bounds false type)
    (baseProper : catalog.IsProper exposed bounds false base)
    (step : catalog.ReferenceStep fuel type base) :
    catalog.isSubtypeWithin (fuel + 1) type base = true := by
  cases step with
  | same => exact isSubtypeWithin_of_beq (beq_self_eq_true _) fuel
  | ceiling ceilingBelow =>
      rw [isSubtypeWithin.eq_def, Bool.or_eq_true]
      cases base with
      | classType id arguments => exact Or.inr ceilingBelow
      | typeVariable id bound => exact Or.inr ceilingBelow
      | array element => exact Or.inr ceilingBelow
      | _ => cases baseProper.applied
  | elements notPrimitive baseNotPrimitive elementBelow =>
      exact isSubtypeWithin_array notPrimitive baseNotPrimitive elementBelow
  | aboveArrays element arguments isAbove => exact isSubtypeWithin_aboveArrays isAbove _ _ fuel
  | object id arguments formals =>
      rw [isSubtypeWithin.eq_def, Bool.or_eq_true]
      simp
  | view less ascent contains =>
      exact isSubtypeWithin_of_view
        (orderly.viewWithin_eq registered typeProper.length_arguments ascent less) contains

include registered orderly exposes table

/-- More fuel gives no fewer positive answers. -/
theorem IsProper.isSubtypeWithin_succ
    (typeProper : catalog.IsProper exposed bounds false type)
    (baseProper : catalog.IsProper exposed bounds false base)
    (below : catalog.isSubtypeWithin fuel type base = true) :
    catalog.isSubtypeWithin (fuel + 1) type base = true := by
  induction fuel generalizing type base with
  | zero => cases below
  | succ fuel inductionHypothesis =>
      apply typeProper.isSubtypeWithin_of_step registered orderly baseProper
      cases typeProper.referenceStep orderly exposes baseProper below with
      | same => exact .same type
      | ceiling ceilingBelow =>
          exact .ceiling
            (inductionHypothesis (typeProper.ceiling registered table) baseProper ceilingBelow)
      | elements notPrimitive baseNotPrimitive elementBelow =>
          exact .elements notPrimitive baseNotPrimitive (inductionHypothesis
            (typeProper.element notPrimitive) (baseProper.element baseNotPrimitive) elementBelow)
      | aboveArrays element arguments isAbove => exact .aboveArrays element arguments isAbove
      | object id arguments formals => exact .object id arguments formals
      | view less ascent contains =>
          have viewProper := typeProper.of_ascends exposes orderly.declaresUses ascent
          -- The ascent is still within reach, so the view and its arguments stay the same.
          apply ReferenceStep.view (Nat.lt_succ_of_lt less) ascent
          rw [List.forall₂_iff_zip] at contains ⊢
          refine ⟨contains.1, fun zipped => ?_⟩
          exact containsArgument_of_imp registered
            (fun _ _ typeProper baseProper => inductionHypothesis typeProper baseProper)
            (baseProper.of_mem (List.of_mem_zip zipped).1)
            (viewProper.of_mem (List.of_mem_zip zipped).2) (contains.2 zipped)

theorem IsProper.isSubtypeWithin_of_le
    (typeProper : catalog.IsProper exposed bounds false type)
    (baseProper : catalog.IsProper exposed bounds false base)
    (below : catalog.isSubtypeWithin fuel type base = true) (le : fuel ≤ more) :
    catalog.isSubtypeWithin more type base = true := by
  induction le with
  | refl => exact below
  | step _ inductionHypothesis =>
      exact typeProper.isSubtypeWithin_succ registered orderly exposes table baseProper
        inductionHypothesis

end Fuel

end Catalog

end TypedJava
