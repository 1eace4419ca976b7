import TypedJava.Proofs.Conversion.Regular
import TypedJava.Subtyping

/-! # Erasure and subtypes

Erasure keeps the subtype relation between regular types, with the same number of steps. Whether a
class derives from another one does not depend on type arguments, as long as definitions only declare
classes as their supertypes. -/

namespace TypedJava

namespace Catalog

/-- Definitions only declare class types as supertypes. -/
def DeclaresClasses (catalog : Catalog) : Prop :=
  ∀ id definition, catalog.definition? id = some definition →
    ∀ type ∈ definition.supertypes catalog.objectType,
      ∃ above arguments, type = .classType above arguments

/-- Whether definitions only declare class types can be read off them. -/
theorem DeclaresClasses.of_all
    {catalog : Catalog}
    (classes : (catalog.definitions.all fun (_, definition) =>
      (definition.supertypes catalog.objectType).all fun type => type.definition?.isSome) = true) :
    catalog.DeclaresClasses := by
  intro id definition found type member
  have isClass : type.definition?.isSome = true :=
    List.all_eq_true.mp (List.all_eq_true.mp classes _ (mem_definitions_of_definition? found))
      type member
  cases type with
  | classType above arguments =>
      exact ⟨above, arguments, rfl⟩
  | _ =>
      cases isClass

/-- A class directly above another one. -/
def IsAbove (catalog : Catalog) (above id : DefinitionId) : Prop :=
  id ≠ catalog.core.object ∧ ∃ definition, catalog.definition? id = some definition ∧
    ∃ arguments, .classType above arguments ∈ definition.supertypes catalog.objectType

section Views

variable {catalog : Catalog} {id above target : DefinitionId} {arguments : List Ty}

/-- The types above a use of a class are the declared ones with other arguments. -/
theorem exists_classSupertypes_eq
    (notObject : id ≠ catalog.core.object) {definition : Definition}
    (found : catalog.definition? id = some definition) (arguments : List Ty) :
    ∃ adapt : Ty → Ty,
      catalog.classSupertypes id arguments =
        (definition.supertypes catalog.objectType).map adapt ∧
      ∀ above others, ∃ adapted, adapt (.classType above others) = .classType above adapted := by
  have declared : definition.supertypes catalog.objectType =
      (definition.supertypes catalog.objectType).map fun type => type := by
    simp
  simp only [classSupertypes, if_neg notObject, found]
  split
  · exact ⟨_, declared, fun above others => ⟨others, rfl⟩⟩
  · split
    · exact ⟨_, rfl, fun above others => ⟨[], rfl⟩⟩
    · split
      · exact ⟨_, rfl, fun above others => ⟨_, rfl⟩⟩
      · exact ⟨_, declared, fun above others => ⟨others, rfl⟩⟩

theorem IsAbove.exists_mem (isAbove : catalog.IsAbove above id) (arguments : List Ty) :
    ∃ others, .classType above others ∈ catalog.classSupertypes id arguments := by
  obtain ⟨notObject, definition, found, others, member⟩ := isAbove
  obtain ⟨adapt, same, adapts⟩ := exists_classSupertypes_eq notObject found arguments
  obtain ⟨adapted, sameClass⟩ := adapts above others
  rw [same]
  exact ⟨adapted, List.mem_map.mpr ⟨_, member, sameClass⟩⟩

theorem DeclaresClasses.exists_isAbove
    (declares : catalog.DeclaresClasses) {type : Ty}
    (member : type ∈ catalog.classSupertypes id arguments) :
    ∃ above others, type = .classType above others ∧ catalog.IsAbove above id := by
  by_cases isObject : id = catalog.core.object
  · rw [classSupertypes, if_pos isObject] at member
    cases member
  · cases found : catalog.definition? id with
    | none =>
        simp [classSupertypes, isObject, found] at member
    | some definition =>
        obtain ⟨adapt, same, adapts⟩ := exists_classSupertypes_eq isObject found arguments
        rw [same] at member
        obtain ⟨type, declared, rfl⟩ := List.mem_map.mp member
        obtain ⟨above, others, rfl⟩ := declares id definition found type declared
        obtain ⟨adapted, sameClass⟩ := adapts above others
        exact ⟨above, adapted, sameClass, isObject, definition, found, others, declared⟩

/-- Whether a class derives from another one does not depend on its arguments. More steps find no
less. -/
theorem DeclaresClasses.isSome_viewWithin
    (declares : catalog.DeclaresClasses) {fuel more : Nat} (le : fuel ≤ more)
    (viewed : (catalog.viewWithin target fuel (.classType id arguments)).isSome = true)
    (others : List Ty) :
    (catalog.viewWithin target more (.classType id others)).isSome = true := by
  induction fuel generalizing id arguments others more with
  | zero =>
      cases viewed
  | succ fuel inductionHypothesis =>
      obtain ⟨more, rfl⟩ : ∃ less, more = less + 1 := ⟨more - 1, by omega⟩
      rw [viewWithin] at viewed ⊢
      split
      · rfl
      · rename_i different
        rw [if_neg different, List.findSome?_isSome_iff] at viewed
        obtain ⟨type, member, viewed⟩ := viewed
        obtain ⟨above, aboveArguments, rfl, isAbove⟩ := declares.exists_isAbove member
        obtain ⟨aboveOthers, memberOthers⟩ := isAbove.exists_mem others
        rw [List.findSome?_isSome_iff]
        exact ⟨_, memberOthers, inductionHypothesis (by omega) viewed aboveOthers⟩

end Views

/-! ## Steps of the subtype relation -/

/-- What the first step of a positive answer about subtypes rests on. -/
inductive SubtypeStep (catalog : Catalog) (fuel : Nat) : Ty → Ty → Prop
  | same {type base : Ty} : (type == base) = true → SubtypeStep catalog fuel type base
  | null {base : Ty} : base.isReference = true → SubtypeStep catalog fuel .null base
  | unbounded {type : Ty} :
      type.isReference = true → SubtypeStep catalog fuel type .unboundedWildcard
  | upper {type upper : Ty} :
      type.isReference = true → catalog.isSubtypeWithin fuel type upper = true →
      SubtypeStep catalog fuel type (.upperWildcard upper)
  | lower {type lower : Ty} :
      type.isReference = true → catalog.isSubtypeWithin fuel lower type = true →
      SubtypeStep catalog fuel type (.lowerWildcard lower)
  | ceiling {type base : Ty} :
      (type.isTypeVariable || type.isWildcard) = true → base.isReference = true →
      catalog.isSubtypeWithin fuel (catalog.ceiling type) base = true →
      SubtypeStep catalog fuel type base
  | elements {element base : Ty} :
      element.isPrimitive = false → base.isPrimitive = false →
      catalog.isSubtypeWithin fuel element base = true →
      SubtypeStep catalog fuel (.array element) (.array base)
  | aboveArrays {element : Ty} {id : DefinitionId} {arguments : List Ty} :
      catalog.isAboveArrays id = true →
      SubtypeStep catalog fuel (.array element) (.classType id arguments)
  | object {id : DefinitionId} {arguments formals : List Ty} :
      SubtypeStep catalog fuel (.classType id arguments) (.classType catalog.core.object formals)
  | view {id base : DefinitionId} {arguments formals actuals : List Ty} :
      catalog.viewWithin base fuel (.classType id arguments) = some (.classType base actuals) →
      catalog.containsArguments (catalog.isSubtypeWithin fuel) formals actuals = true →
      SubtypeStep catalog fuel (.classType id arguments) (.classType base formals)

section Steps

variable {catalog : Catalog} {fuel : Nat} {type base : Ty}

/-- A view as a class is a use of the class. -/
theorem exists_of_viewWithin
    {target : DefinitionId} {view : Ty} (viewed : catalog.viewWithin target fuel type = some view) :
    ∃ arguments, view = .classType target arguments := by
  induction fuel generalizing type with
  | zero =>
      cases viewed
  | succ fuel inductionHypothesis =>
      cases type with
      | classType id arguments =>
          rw [viewWithin] at viewed
          split at viewed
          · rename_i same
            cases viewed
            exact ⟨arguments, by rw [same]⟩
          · obtain ⟨above, _, viewed⟩ := List.exists_of_findSome?_eq_some viewed
            exact inductionHypothesis viewed
      | array element =>
          rw [viewWithin] at viewed
          split at viewed
          · cases viewed
            exact ⟨[], rfl⟩
          · cases viewed
      | primitive kind =>
          cases viewed
      | null =>
          cases viewed
      | _ =>
          exact inductionHypothesis viewed

theorem subtypeStep
    (below : catalog.isSubtypeWithin (fuel + 1) type base = true) :
    catalog.SubtypeStep fuel type base := by
  by_cases same : (type == base) = true
  · exact .same same
  rw [isSubtypeWithin.eq_def, Bool.or_eq_true] at below
  replace below := below.resolve_left same
  cases type with
  | primitive kind =>
      cases below
  | null =>
      cases base with
      | primitive kind =>
          cases below
      | _ =>
          exact .null rfl
  | classType id arguments =>
      cases base with
      | classType target formals =>
          rcases Bool.or_eq_true_iff.mp below with isObject | viewed
          · cases eq_of_beq isObject
            exact .object
          · cases found : catalog.viewWithin target fuel (.classType id arguments) with
            | none =>
                simp [found] at viewed
            | some view =>
                obtain ⟨actuals, rfl⟩ := exists_of_viewWithin found
                simp only [found] at viewed
                exact .view found viewed
      | unboundedWildcard =>
          exact .unbounded rfl
      | upperWildcard upper =>
          exact .upper rfl below
      | lowerWildcard lower =>
          exact .lower rfl below
      | _ =>
          cases below
  | array element =>
      cases base with
      | array other =>
          simp only at below
          split at below
          · exact .same below
          · rename_i notPrimitive
            rw [Bool.or_eq_true, not_or, Bool.not_eq_true, Bool.not_eq_true] at notPrimitive
            exact .elements notPrimitive.1 notPrimitive.2 below
      | classType id arguments =>
          exact .aboveArrays below
      | unboundedWildcard =>
          exact .unbounded rfl
      | upperWildcard upper =>
          exact .upper rfl below
      | lowerWildcard lower =>
          exact .lower rfl below
      | _ =>
          cases below
  | _ =>
      cases base with
      | unboundedWildcard =>
          exact .unbounded rfl
      | upperWildcard upper =>
          exact .upper rfl below
      | lowerWildcard lower =>
          exact .lower rfl below
      | primitive kind =>
          cases below
      | null =>
          cases below
      | _ =>
          exact .ceiling rfl rfl below

/-- A subtype of a reference is a reference, and one of a primitive type is primitive. -/
theorem isReference_eq_of_isSubtypeWithin (below : catalog.isSubtypeWithin fuel type base = true) :
    type.isReference = base.isReference := by
  cases fuel with
  | zero =>
      cases below
  | succ fuel =>
      cases subtypeStep below with
      | same same =>
          exact Ty.isReference_eq_of_beq same
      | null isReference =>
          exact isReference.symm
      | unbounded isReference =>
          exact isReference
      | upper isReference _ =>
          exact isReference
      | lower isReference _ =>
          exact isReference
      | ceiling isOpen isReference _ =>
          rw [isReference]
          cases type with
          | primitive kind =>
              cases isOpen
          | _ =>
              rfl
      | _ =>
          rfl

/-- A primitive type has no other supertypes than itself. -/
theorem beq_of_isSubtypeWithin
    (notReference : type.isReference = false)
    (below : catalog.isSubtypeWithin fuel type base = true) :
    (type == base) = true := by
  cases fuel with
  | zero =>
      cases below
  | succ fuel =>
      cases type with
      | primitive kind =>
          rw [isSubtypeWithin.eq_def, Bool.or_eq_true] at below
          exact below.resolve_right Bool.false_ne_true
      | _ =>
          cases notReference

theorem isSubtypeWithin_of_beq (same : (type == base) = true) (fuel : Nat) :
    catalog.isSubtypeWithin (fuel + 1) type base = true := by
  rw [isSubtypeWithin.eq_def, Bool.or_eq_true]
  exact Or.inl same

theorem isSubtypeWithin_null (isReference : base.isReference = true) (fuel : Nat) :
    catalog.isSubtypeWithin (fuel + 1) .null base = true := by
  rw [isSubtypeWithin.eq_def, Bool.or_eq_true]
  cases base with
  | primitive kind =>
      cases isReference
  | _ =>
      exact Or.inr rfl

theorem isSubtypeWithin_array
    {element : Ty} (notPrimitive : element.isPrimitive = false)
    (baseNotPrimitive : base.isPrimitive = false)
    (below : catalog.isSubtypeWithin fuel element base = true) :
    catalog.isSubtypeWithin (fuel + 1) (.array element) (.array base) = true := by
  rw [isSubtypeWithin.eq_def, Bool.or_eq_true]
  simp only [notPrimitive, baseNotPrimitive]
  exact Or.inr below

theorem isSubtypeWithin_of_array
    {element : Ty}
    (below : catalog.isSubtypeWithin (fuel + 2) (.array element) (.array base) = true) :
    catalog.isSubtypeWithin (fuel + 1) element base = true := by
  cases subtypeStep below with
  | same same =>
      have sameElement : (element == base) = true := same
      exact isSubtypeWithin_of_beq sameElement fuel
  | ceiling isOpen _ _ =>
      cases isOpen
  | elements _ _ elementBelow =>
      exact elementBelow

theorem isSubtypeWithin_aboveArrays
    {id : DefinitionId} (isAbove : catalog.isAboveArrays id = true) (element : Ty)
    (arguments : List Ty) (fuel : Nat) :
    catalog.isSubtypeWithin (fuel + 1) (.array element) (.classType id arguments) = true := by
  rw [isSubtypeWithin.eq_def, Bool.or_eq_true]
  exact Or.inr isAbove

/-- A use of a class is within itself, and raw uses are within all and contain all. -/
theorem containsArguments_of_fits
    {formals actuals : List Ty} (isSubtype : Ty → Ty → Bool)
    (fits : formals = [] ∨ actuals = [] ∨ actuals = formals) :
    catalog.containsArguments isSubtype formals actuals = true := by
  rcases fits with rfl | rfl | rfl
  · rfl
  · rw [containsArguments, List.isEmpty_nil, Bool.or_true, Bool.true_or]
  · rw [containsArguments, beq_self_eq_true, Bool.true_and, Bool.or_eq_true, List.all_eq_true]
    refine Or.inr ?_
    rintro ⟨formal, actual⟩ member
    obtain ⟨position, inside, entry⟩ := List.mem_iff_getElem.mp member
    simp only [List.getElem_zip, Prod.mk.injEq] at entry
    have same : formal = actual := entry.1.symm.trans entry.2
    simp [containsArgument, same]

theorem isSubtypeWithin_of_viewWithin
    {id : DefinitionId} {formals actuals : List Ty}
    (viewed : catalog.viewWithin id fuel type = some (.classType id actuals))
    (fits : formals = [] ∨ actuals = [] ∨ actuals = formals) :
    catalog.isSubtypeWithin (fuel + 1) type (.classType id formals) = true := by
  induction fuel generalizing type with
  | zero =>
      cases viewed
  | succ fuel inductionHypothesis =>
      rw [isSubtypeWithin.eq_def, Bool.or_eq_true]
      refine Or.inr ?_
      cases type with
      | primitive kind =>
          cases viewed
      | null =>
          cases viewed
      | classType definition arguments =>
          simp only [viewed, containsArguments_of_fits _ fits, Bool.or_true]
      | array element =>
          rw [viewWithin] at viewed
          split at viewed
          · assumption
          · cases viewed
      | _ =>
          exact inductionHypothesis viewed

theorem isSubtypeWithin_raw
    {id target : DefinitionId}
    (viewed : (catalog.viewWithin target fuel (.classType id [])).isSome = true) :
    catalog.isSubtypeWithin (fuel + 1) (.classType id []) (.classType target []) = true := by
  obtain ⟨view, found⟩ := Option.isSome_iff_exists.mp viewed
  obtain ⟨actuals, rfl⟩ := exists_of_viewWithin found
  exact isSubtypeWithin_of_viewWithin found (Or.inl rfl)

end Steps

end Catalog

namespace Ty

variable {catalog : Catalog} {bounds : VarId → Option Ty} {fuel : Nat} {type base : Ty}

/-- Every erased reference type is below the root class. -/
theorem Erased.isSubtypeWithin_object
    (erased : type.Erased) (isReference : type.isReference = true) (fuel : Nat) :
    catalog.isSubtypeWithin (fuel + 1) type catalog.objectType = true := by
  cases erased with
  | primitive kind =>
      cases isReference
  | raw definition =>
      simp [Catalog.isSubtypeWithin, Catalog.objectType, Ty.raw]
  | array element =>
      exact Catalog.isSubtypeWithin_aboveArrays (by simp [Catalog.isAboveArrays]) _ _ _
  | null =>
      exact Catalog.isSubtypeWithin_null rfl fuel

/-- More steps find no less between erased types. -/
theorem Erased.isSubtypeWithin_succ
    (declares : catalog.DeclaresClasses) (typeErased : type.Erased) (baseErased : base.Erased)
    (below : catalog.isSubtypeWithin fuel type base = true) :
    catalog.isSubtypeWithin (fuel + 1) type base = true := by
  induction fuel generalizing type base with
  | zero =>
      cases below
  | succ fuel inductionHypothesis =>
      cases Catalog.subtypeStep below with
      | same same =>
          exact Catalog.isSubtypeWithin_of_beq same _
      | null isReference =>
          exact Catalog.isSubtypeWithin_null isReference _
      | unbounded _ =>
          cases baseErased
      | upper _ _ =>
          cases baseErased
      | lower _ _ =>
          cases baseErased
      | ceiling isOpen _ _ =>
          cases typeErased <;> cases isOpen
      | elements notPrimitive baseNotPrimitive elementBelow =>
          cases typeErased with
          | array elementErased =>
              cases baseErased with
              | array baseErased =>
                  exact Catalog.isSubtypeWithin_array notPrimitive baseNotPrimitive
                    (inductionHypothesis elementErased baseErased elementBelow)
      | aboveArrays isAbove =>
          exact Catalog.isSubtypeWithin_aboveArrays isAbove _ _ _
      | object =>
          cases baseErased
          exact typeErased.isSubtypeWithin_object rfl _
      | view found _ =>
          cases typeErased
          cases baseErased
          exact Catalog.isSubtypeWithin_raw
            (declares.isSome_viewWithin (Nat.le_succ fuel) (by rw [found]; rfl) [])

theorem erase_ceiling (isOpen : (type.isTypeVariable || type.isWildcard) = true) :
    (catalog.ceiling type).erase catalog = type.erase catalog := by
  cases type with
  | typeVariable id bound =>
      cases bound <;> rfl
  | unboundedWildcard =>
      rfl
  | upperWildcard upper =>
      rfl
  | lowerWildcard lower =>
      rfl
  | _ =>
      cases isOpen

theorem Grounded.ceiling (grounded : type.Grounded bounds) :
    (catalog.ceiling type).Grounded bounds := by
  cases type with
  | typeVariable id bound =>
      cases bound with
      | none =>
          exact trivial
      | some bound =>
          exact grounded.2.2
  | upperWildcard upper =>
      exact grounded.2
  | unboundedWildcard =>
      exact trivial
  | lowerWildcard lower =>
      exact trivial
  | _ =>
      exact grounded

/-- Erasure keeps subtypes. -/
theorem Grounded.isSubtypeWithin_erase
    (declares : catalog.DeclaresClasses) (grounded : type.Grounded bounds)
    (baseGrounded : base.Grounded bounds)
    (below : catalog.isSubtypeWithin fuel type base = true) :
    catalog.isSubtypeWithin fuel (type.erase catalog) (base.erase catalog) = true := by
  induction fuel generalizing type base with
  | zero =>
      cases below
  | succ fuel inductionHypothesis =>
      have more {type base : Ty}
          (below : catalog.isSubtypeWithin fuel (type.erase catalog) (base.erase catalog) = true) :
          catalog.isSubtypeWithin (fuel + 1) (type.erase catalog) (base.erase catalog) = true :=
        (erased_erase catalog type).isSubtypeWithin_succ declares (erased_erase catalog base) below
      have belowObject (isReference : type.isReference = true) :
          catalog.isSubtypeWithin (fuel + 1) (type.erase catalog) catalog.objectType = true :=
        (erased_erase catalog type).isSubtypeWithin_object
          (grounded.isReference_erase isReference) _
      cases Catalog.subtypeStep below with
      | same same =>
          rw [grounded.erase_eq baseGrounded same]
          exact Catalog.isSubtypeWithin_of_beq BEq.rfl _
      | null isReference =>
          exact Catalog.isSubtypeWithin_null (baseGrounded.isReference_erase isReference) _
      | unbounded isReference =>
          exact belowObject isReference
      | lower isReference _ =>
          exact belowObject isReference
      | @upper _ upper _ belowUpper =>
          have upperGrounded : upper.Grounded bounds := baseGrounded.2
          have erasedBelow := inductionHypothesis grounded upperGrounded belowUpper
          exact more erasedBelow
      | ceiling isOpen _ ceilingBelow =>
          have belowCeiling := inductionHypothesis grounded.ceiling baseGrounded ceilingBelow
          rw [erase_ceiling isOpen] at belowCeiling
          exact more belowCeiling
      | @elements element other _ _ elementBelow =>
          cases isReference : element.isReference with
          | true =>
              have otherIsReference : other.isReference = true :=
                (Catalog.isReference_eq_of_isSubtypeWithin elementBelow).symm.trans isReference
              exact Catalog.isSubtypeWithin_array
                (isPrimitive_eq_false (grounded.element.isReference_erase isReference))
                (isPrimitive_eq_false (baseGrounded.element.isReference_erase otherIsReference))
                (inductionHypothesis grounded.element baseGrounded.element elementBelow)
          | false =>
              -- Only `void` is neither a reference nor a type of values; nothing else is below it.
              have sameElement : (element == other) = true :=
                Catalog.beq_of_isSubtypeWithin isReference elementBelow
              have same : (array element == array other) = true := sameElement
              rw [grounded.erase_eq baseGrounded same]
              exact Catalog.isSubtypeWithin_of_beq BEq.rfl _
      | aboveArrays isAbove =>
          exact Catalog.isSubtypeWithin_aboveArrays isAbove _ _ _
      | object =>
          exact belowObject rfl
      | view found _ =>
          exact Catalog.isSubtypeWithin_raw
            (declares.isSome_viewWithin (Nat.le_refl fuel) (by rw [found]; rfl) [])

theorem Regular.isSubtypeWithin_erase
    (declares : catalog.DeclaresClasses) (regular : type.Regular bounds)
    (baseRegular : base.Regular bounds)
    (below : catalog.isSubtypeWithin fuel type base = true) :
    catalog.isSubtypeWithin fuel (type.erase catalog) (base.erase catalog) = true :=
  regular.grounded.isSubtypeWithin_erase declares baseRegular.grounded below

end Ty

namespace Catalog

/-- Erasure preserves subtyping. Variables of one identity carry the same bound in both types, as one
table of bounds has it, and the bounds of variables and wildcards are references. Nothing is asked of
the arguments of class types, of other bounds inside of them, or of the height of the hierarchy. -/
theorem isSubtype_erase
    {catalog : Catalog} {bounds : VarId → Option Ty} {type base : Ty}
    (declares : catalog.DeclaresClasses) (grounded : type.Grounded bounds)
    (baseGrounded : base.Grounded bounds) (below : catalog.isSubtype type base = true) :
    catalog.isSubtype (type.erase catalog) (base.erase catalog) = true :=
  grounded.isSubtypeWithin_erase declares baseGrounded below

/-- A catalog with a generic class of boxes, which are comparable with what they hold, and a class of
crates, which are boxes of strings. -/
def crates : Catalog :=
  let box := fun id => { Definition.ofClass "Box" with
    parameters := [⟨"T", none⟩]
    interfaces := [.classType ⟨4⟩ [.typeVariable ⟨"T", some id⟩ none]] }
  let crate := fun _ => { Definition.ofClass "Crate" with
    base := some (.classType ⟨15⟩ [.raw ⟨6⟩]) }
  ((Catalog.standard.insertWith box).2.insertWith crate).2

/-- An array of a variable that is bounded by another one, below an array of comparables: erasure
leaves an array of crates below an array of raw comparables. -/
theorem isSubtype_erase_of_crates :
    let crate : Ty := .raw ⟨16⟩
    let inner : Ty := .typeVariable ⟨"C", none⟩ (some crate)
    let type : Ty := .array (.typeVariable ⟨"V", none⟩ (some inner))
    let held : Ty := .typeVariable ⟨"S", none⟩ (some (.raw ⟨6⟩))
    let base : Ty := .array (.upperWildcard (.classType ⟨4⟩ [.lowerWildcard held]))
    crates.DeclaresClasses ∧ crates.isSubtype type base = true ∧
      type.erase crates = .array crate ∧ base.erase crates = .array (.raw ⟨4⟩) ∧
      crates.isSubtype (type.erase crates) (base.erase crates) = true := by
  have declares : crates.DeclaresClasses := .of_all (by decide +kernel)
  let bounds (id : VarId) : Option Ty :=
    if id = ⟨"C", none⟩ then some (.raw ⟨16⟩)
    else if id = ⟨"V", none⟩ then some (.typeVariable ⟨"C", none⟩ (some (.raw ⟨16⟩)))
    else none
  refine ⟨declares, by decide +kernel, rfl, rfl, ?_⟩
  have grounded : Ty.Grounded bounds (.array (.typeVariable ⟨"V", none⟩
      (some (.typeVariable ⟨"C", none⟩ (some (.raw ⟨16⟩)))))) :=
    ⟨rfl, rfl, rfl, rfl, trivial⟩
  exact isSubtype_erase declares grounded ⟨rfl, trivial⟩ (by decide +kernel)

end Catalog

end TypedJava
