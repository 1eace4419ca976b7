import TypedJava.Proofs.Conversion.Castable

/-! # Wildcards that may be left out

A type written without wildcards is another type if it had some. A use of a class still contains the
use without wildcards as long as its wildcards stand right below the class. Deeper down the arguments
are invariant, so that there the written type is no subtype of the type that it was written for. -/

namespace TypedJava

theorem Conversion.isExplicit_eq_false_of_isImplicit
    {conversion : Conversion} (isImplicit : conversion.isImplicit = true) :
    conversion.isExplicit = false := by
  cases conversion <;> first | rfl | cases isImplicit

namespace Catalog

variable {catalog : Catalog} {target source : Ty} {fuel : Nat}

theorem isSubtypeWithin_upperWildcard
    {type upper : Ty} (isReference : type.isReference = true)
    (below : catalog.isSubtypeWithin fuel type upper = true) :
    catalog.isSubtypeWithin (fuel + 1) type (.upperWildcard upper) = true := by
  rw [isSubtypeWithin.eq_def, Bool.or_eq_true]
  cases type with
  | primitive kind =>
      cases isReference
  | null =>
      exact Or.inr rfl
  | _ =>
      exact Or.inr below

/-- Arrays convert without a cast if their elements do. -/
theorem betweenReferences_array_of_implicit
    (notPrimitive : target.isPrimitive = false) (sourceNotPrimitive : source.isPrimitive = false)
    (elements : catalog.betweenReferences target source = .implicit) :
    catalog.betweenReferences (.array target) (.array source) = .implicit := by
  rw [betweenReferences, notPrimitive, sourceNotPrimitive, elements]
  exact ite_self _

end Catalog

namespace Ty

mutual

/-- There is neither a wildcard nor the null type in the type. -/
def isProper : Ty → Bool
  | primitive _ | typeVariable _ _ => true
  | classType _ arguments => listIsProper arguments
  | array element => isProper element
  | unboundedWildcard | upperWildcard _ | lowerWildcard _ | null => false

/-- There is neither a wildcard nor the null type in any of the types. -/
def listIsProper : List Ty → Bool
  | [] => true
  | type :: types => isProper type && listIsProper types

end

/-- A type argument, or a wildcard whose bound has no wildcards in it. -/
def isShallowArgument (catalog : Catalog) : Ty → Bool
  | unboundedWildcard => true
  | upperWildcard upper => upper.isProper
  | lowerWildcard lower =>
    lower.isProper && catalog.isSubtypeWithin supertypeLimit lower catalog.objectType
  | type => type.isProper

/-- Wildcards only stand right below the class, under array dimensions or alone. -/
def isShallow (catalog : Catalog) : Ty → Bool
  | classType _ arguments => arguments.all (isShallowArgument catalog)
  | array element => isShallow catalog element
  | upperWildcard upper => upper.isProper && upper.isReference
  | type => isShallowArgument catalog type

section Written

variable {catalog : Catalog} {options : TypeSyntaxOptions}

mutual

/-- What has no wildcards is written as it is. -/
theorem writable_of_isProper
    (full : options.includeArguments = true) (topLevel : Bool) :
    (type : Ty) → type.isProper = true → type.writable catalog options topLevel = type
  | primitive _, _ => rfl
  | typeVariable _ _, _ => rfl
  | classType definition arguments, proper => by
      have written := writableList_of_isProper full arguments proper
      rw [writable, if_pos full, written]
  | array element, proper => by
      have written := writable_of_isProper full false element proper
      rw [writable, written]

theorem writableList_of_isProper (full : options.includeArguments = true) :
    (types : List Ty) → listIsProper types = true → writableList catalog options types = types
  | [], _ => rfl
  | type :: types, proper => by
      have both := Bool.and_eq_true_iff.mp proper
      rw [writableList, writable_of_isProper full false type both.1,
        writableList_of_isProper full types both.2]

end

theorem containsArgument_of_isProper
    {isSubtype : Ty → Ty → Bool} {actual : Ty} (proper : actual.isProper = true) :
    catalog.containsArgument isSubtype (.upperWildcard actual) actual =
      (Ty.upperWildcard actual == actual || isSubtype actual actual) := by
  cases actual <;> first | rfl | cases proper

/-- An argument contains what is written for it. -/
theorem containsArgument_writable
    (full : options.includeArguments = true) (noWildcards : options.allowWildcards = false)
    {argument : Ty} (shallow : argument.isShallowArgument catalog = true) :
    catalog.containsArgument (catalog.isSubtypeWithin supertypeLimit) argument
      (argument.writable catalog options false) = true := by
  have same (proper : argument.isProper = true) :
      catalog.containsArgument (catalog.isSubtypeWithin supertypeLimit) argument
        (argument.writable catalog options false) = true := by
    rw [writable_of_isProper full false argument proper]
    exact Bool.or_eq_true_iff.mpr (Or.inl BEq.rfl)
  cases argument with
  | unboundedWildcard =>
      exact Bool.or_eq_true_iff.mpr (Or.inr rfl)
  | upperWildcard upper =>
      rw [writable, noWildcards, Bool.false_and, if_neg Bool.false_ne_true,
        writable_of_isProper full false upper shallow, containsArgument_of_isProper shallow,
        Bool.or_eq_true]
      exact Or.inr (Catalog.isSubtypeWithin_self upper _)
  | lowerWildcard lower =>
      have both := Bool.and_eq_true_iff.mp shallow
      rw [writable, noWildcards, Bool.false_and, if_neg Bool.false_ne_true]
      exact Bool.or_eq_true_iff.mpr (Or.inr both.2)
  | null =>
      cases shallow
  | _ =>
      exact same shallow

theorem containsArguments_writable
    (full : options.includeArguments = true) (noWildcards : options.allowWildcards = false)
    {arguments : List Ty} (shallow : arguments.all (isShallowArgument catalog) = true) :
    catalog.containsArguments (catalog.isSubtypeWithin supertypeLimit) arguments
      (writableList catalog options arguments) = true := by
  have each : (writableList catalog options arguments).length = arguments.length ∧
      ∀ pair ∈ arguments.zip (writableList catalog options arguments),
        catalog.containsArgument (catalog.isSubtypeWithin supertypeLimit) pair.1 pair.2 = true := by
    induction arguments with
    | nil =>
        exact ⟨rfl, fun _ member => by cases member⟩
    | cons argument arguments inductionHypothesis =>
        have both := Bool.and_eq_true_iff.mp shallow
        have rest := inductionHypothesis both.2
        have first := containsArgument_writable full noWildcards both.1
        rw [writableList]
        exact ⟨congrArg (· + 1) rest.1, List.forall_mem_cons.mpr ⟨first, rest.2⟩⟩
  rw [Catalog.containsArguments, Bool.or_eq_true, Bool.and_eq_true]
  exact Or.inr ⟨beq_iff_eq.mpr each.1, List.all_eq_true.mpr each.2⟩

theorem isSubtype_writable_classType
    (full : options.includeArguments = true) (noWildcards : options.allowWildcards = false)
    {definition : DefinitionId} {arguments : List Ty}
    (shallow : arguments.all (isShallowArgument catalog) = true) :
    catalog.isSubtype (classType definition (writableList catalog options arguments))
      (classType definition arguments) = true := by
  have contains := containsArguments_writable full noWildcards shallow
  have view : catalog.viewWithin definition supertypeLimit
      (classType definition (writableList catalog options arguments)) =
        some (classType definition (writableList catalog options arguments)) := by
    rw [supertypeLimit, Catalog.viewWithin, if_pos rfl]
  rw [Catalog.isSubtype, Catalog.isSubtypeWithin.eq_def, Bool.or_eq_true]
  simp only [view, contains, Bool.or_true, or_true]

theorem isReference_writable_of_isShallow
    (full : options.includeArguments = true) (noWildcards : options.allowWildcards = false)
    (topLevel : Bool) {type : Ty} (shallow : type.isShallow catalog = true)
    (isReference : type.isReference = true) :
    (type.writable catalog options topLevel).isReference = true := by
  cases type with
  | upperWildcard upper =>
      have both := Bool.and_eq_true_iff.mp shallow
      rw [writable, noWildcards, Bool.false_and, if_neg Bool.false_ne_true,
        writable_of_isProper full topLevel upper both.1]
      exact both.2
  | primitive kind =>
      cases isReference
  | classType definition arguments =>
      rw [writable, if_pos full]
      rfl
  | unboundedWildcard =>
      rw [writable, noWildcards]
      rfl
  | lowerWildcard lower =>
      rw [writable, noWildcards]
      rfl
  | _ =>
      rfl

/-- The null type is never written. -/
theorem isNull_writable (topLevel : Bool) (type : Ty) :
    (type.writable catalog options topLevel).isNull = false := by
  induction type using spineInduction generalizing topLevel with
  | upperWildcard upper inductionHypothesis =>
      rw [writable]
      split
      · rfl
      · exact inductionHypothesis topLevel
  | classType definition arguments =>
      rw [writable]
      split <;> rfl
  | unboundedWildcard =>
      rw [writable]
      split <;> rfl
  | lowerWildcard lower =>
      rw [writable]
      split <;> rfl
  | _ =>
      rfl

/-- Without wildcards the written type converts to the type that it was written for. -/
theorem betweenReferences_writable
    (full : options.includeArguments = true) (noWildcards : options.allowWildcards = false)
    (topLevel : Bool) {type : Ty} (shallow : type.isShallow catalog = true) :
    catalog.betweenReferences type (type.writable catalog options topLevel) = .implicit := by
  induction type using spineInduction generalizing topLevel with
  | primitive kind =>
      exact Catalog.betweenReferences_of_isSubtype (Catalog.isSubtypeWithin_self _ _)
  | classType definition arguments =>
      rw [writable, if_pos full]
      exact Catalog.betweenReferences_of_isSubtype
        (isSubtype_writable_classType full noWildcards shallow)
  | openVariable id =>
      exact Catalog.betweenReferences_of_isSubtype (Catalog.isSubtypeWithin_self _ _)
  | boundVariable id bound _ =>
      exact Catalog.betweenReferences_of_isSubtype (Catalog.isSubtypeWithin_self _ _)
  | unboundedWildcard =>
      rw [writable, noWildcards]
      exact Catalog.betweenReferences_of_isSubtype rfl
  | upperWildcard upper _ =>
      have both := Bool.and_eq_true_iff.mp shallow
      rw [writable, noWildcards, Bool.false_and, if_neg Bool.false_ne_true,
        writable_of_isProper full topLevel upper both.1]
      exact Catalog.betweenReferences_of_isSubtype
        (Catalog.isSubtypeWithin_upperWildcard both.2 (Catalog.isSubtypeWithin_self upper _))
  | lowerWildcard lower =>
      have both := Bool.and_eq_true_iff.mp shallow
      rw [writable, noWildcards]
      exact Catalog.betweenReferences_of_isSubtype both.2
  | array element inductionHypothesis =>
      have elementShallow : element.isShallow catalog = true := shallow
      have elements := inductionHypothesis false elementShallow
      rw [writable]
      -- Elements that are no references do not convert one by one, but they are written as they are.
      cases isReference : element.isReference with
      | true =>
          have writtenIsReference :=
            isReference_writable_of_isShallow full noWildcards false elementShallow isReference
          exact Catalog.betweenReferences_array_of_implicit (isPrimitive_eq_false isReference)
            (isPrimitive_eq_false writtenIsReference) elements
      | false =>
          cases element with
          | primitive kind =>
              exact Catalog.betweenReferences_of_isSubtype (Catalog.isSubtypeWithin_self _ _)
          | _ =>
              cases isReference
  | null =>
      cases shallow

/-- Without wildcards the written type converts without a cast. -/
theorem isImplicit_conversion_writable
    (full : options.includeArguments = true) (noWildcards : options.allowWildcards = false)
    (topLevel : Bool) {type : Ty} (shallow : type.isShallow catalog = true) :
    (catalog.conversion type (type.writable catalog options topLevel)).isImplicit = true := by
  cases same : (type == type.writable catalog options topLevel) with
  | true =>
      rw [Catalog.conversion.eq_def, if_pos same]
      rfl
  | false =>
      cases isReference : type.isReference with
      | true =>
          have converts := betweenReferences_writable full noWildcards topLevel shallow
          rw [Catalog.conversion_eq_betweenReferences same isReference
            (isReference_writable_of_isShallow full noWildcards topLevel shallow isReference)
            (isNull_writable topLevel type), converts]
          rfl
      | false =>
          cases type with
          | primitive kind =>
              rw [writable, BEq.rfl] at same
              cases same
          | _ =>
              cases isReference

end Written

end Ty

end TypedJava
