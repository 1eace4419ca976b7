import TypedJava.Proofs.ConversionPass.NewTypes

/-! # Assigned values that the rules are done with

The rules keep an assigned value that fits the left side, or give it the type that they write for the
left side. So a complete run leaves no simple assignment of a truth value to a number or of a number
to a truth value. -/

namespace TypedJava

theorem Ty.exists_kind_of_isNumeric {type : Ty} (numeric : type.isNumeric = true) :
    ∃ kind : JvmKind, kind.isNumeric = true ∧ type = .primitive kind := by
  cases type with
  | primitive kind =>
      exact ⟨kind, numeric, rfl⟩
  | _ =>
      cases numeric

theorem Ty.eq_of_isBoolean {type : Ty} (isBoolean : type.isBoolean = true) :
    type = .primitive .boolean := by
  cases type with
  | primitive kind =>
      revert isBoolean
      cases kind <;> simp [Ty.isBoolean, Ty.primitiveKind?]
  | _ =>
      cases isBoolean

theorem JvmKind.mem_of_narrow
    {kind : JvmKind} (isNumber : kind.isNumeric = true) (narrow : kind.width < 32) :
    kind ∈ [byte, short, char] := by
  revert isNumber narrow
  cases kind <;> decide

/-- The operand of a cast to whole numbers is of a type with less room than an `int`, but no less than
the cast has. -/
structure NarrowsInCast (type : Ty) (role : Role) (parent : Option Payload) (outer : Option Ty) :
    Prop where
  isCast : parent = some .cast
  isOperand : role = .expression
  narrow : ∃ kind ∈ [JvmKind.byte, .short, .char], type = .primitive kind ∧
    ∃ outerKind, outer = some (.primitive outerKind) ∧ outerKind.isIntegral = true ∧
      outerKind.width ≤ kind.width

namespace Branch

/-- The type of a value that the rules assign to a target: one that they keep, or the one that they
write. -/
inductive Assigned (catalog : Catalog) (options : TypeSyntaxOptions) (target : Ty) : Ty → Prop
  | kept {source : Ty} :
      ¬ becomesNumber catalog target source → (∀ kind, ¬ becomesTruth catalog target source kind) →
      (catalog.conversion target source).isExplicit = false →
      Assigned catalog options target source
  | written :
      Assigned catalog options target
        (target.writable catalog { options with allowWildcards := false } true)

/-- The node at the top is no simple assignment, or the rules are done with its value. -/
def AssignedAt (context : Context) (options : TypeSyntaxOptions) (branch : Branch) : Prop :=
  branch.payload.handling = .assignment → ∀ target source,
    branch.typeIn? context .left = some target → branch.typeIn? context .right = some source →
    Assigned context.catalog options target source

/-- The node at the top is no simple assignment between truth values and numbers. -/
def UnmixedAt (context : Context) (branch : Branch) : Prop :=
  branch.payload.handling = .assignment → ∀ target source,
    branch.typeIn? context .left = some target → branch.typeIn? context .right = some source →
    ¬ becomesNumber context.catalog target source ∧
      ∀ kind, ¬ becomesTruth context.catalog target source kind

section Mixes

variable {catalog : Catalog} {target source : Ty} {kind : JvmKind}

/-- A number does not become a number. -/
theorem not_becomesNumber_of_isNumeric (numeric : kind.isNumeric = true) :
    ¬ becomesNumber catalog target (.primitive kind) := by
  rintro ⟨isTruth, _⟩
  rw [Catalog.underlyingKind?, if_pos (JvmKind.isPrimitive_of_isNumeric numeric)] at isTruth
  cases isTruth
  cases numeric

theorem not_becomesTruth_of_isNumeric (numeric : target.isNumeric = true) :
    ¬ becomesTruth catalog target source kind := by
  rintro ⟨_, _, isBoolean⟩
  rw [Ty.eq_of_isBoolean isBoolean] at numeric
  cases numeric

/-- A truth value does not become a truth value. -/
theorem not_becomesTruth_of_boolean : ¬ becomesTruth catalog target (.primitive .boolean) kind := by
  rintro ⟨isTruth, numeric, _⟩
  cases isTruth
  cases numeric

/-- The value does not mix truth values and numbers with its target. -/
theorem Assigned.unmixed
    {options : TypeSyntaxOptions} (assigned : Assigned catalog options target source) :
    ¬ becomesNumber catalog target source ∧ ∀ kind, ¬ becomesTruth catalog target source kind := by
  cases assigned with
  | kept noNumber noTruth _ =>
      exact ⟨noNumber, noTruth⟩
  | written =>
      constructor
      · intro number
        obtain ⟨kind, isNumber, rfl⟩ := Ty.exists_kind_of_isNumeric number.2
        rw [Ty.writable] at number
        exact not_becomesNumber_of_isNumeric isNumber number
      · intro kind truth
        rw [Ty.eq_of_isBoolean truth.2.2, Ty.writable] at truth
        exact not_becomesTruth_of_boolean truth

end Mixes

theorem eq_of_valueKind? {type : Ty} {kind : JvmKind} (known : type.valueKind? = some kind) :
    type = .primitive kind := by
  obtain ⟨isKind, _⟩ := Option.filter_eq_some_iff.mp known
  cases type with
  | primitive other =>
      cases isKind
      rfl
  | _ => cases isKind

/-- Conversion to a type with less room does not preserve every `int`. -/
theorem preservesValue_narrow {kind : JvmKind} (narrow : kind.width < 32) :
    preservesValue .int kind none = false := by
  cases kind <;> first | rfl | exact absurd narrow (by decide)

/-- An `int` that is no literal is not stored in a type with less room. -/
theorem needlessWhenStored_narrow
    {context : Context} {kind : JvmKind} (narrow : kind.width < 32) (target : Ty) :
    context.needlessWhenStored (.ofType (.primitive .int)) (.primitive kind) target = false := by
  cases kind <;> first | rfl | exact absurd narrow (by decide)

theorem needlessAsOperand_narrow {kind : JvmKind} (narrow : kind.width < 32) (other : JvmKind) :
    needlessAsOperand (.ofType (.primitive .int)) (.primitive kind) other = false := by
  have changes := preservesValue_narrow narrow
  rw [needlessAsOperand]
  split
  · rename_i isInt isKind
    cases isInt
    cases eq_of_valueKind? isKind
    simp [Resolved.ofType, changes]
  · rfl

/-- An `int` that is no literal is converted to a type with less room inside of a cast only if that
is a cast to whole numbers with no more room. -/
theorem exists_of_needlessInsideCast_narrow
    {kind : JvmKind} (narrow : kind.width < 32) {outer : Ty}
    (inside : needlessInsideCast (.ofType (.primitive .int)) (.primitive kind) outer = true) :
    ∃ outerKind, outer = .primitive outerKind ∧ outerKind.isIntegral = true ∧
      outerKind.width ≤ kind.width := by
  have changes := preservesValue_narrow narrow
  rw [needlessInsideCast] at inside
  split at inside
  · rename_i isInt isKind isOuter
    cases isInt
    cases eq_of_valueKind? isKind
    rw [Resolved.ofType, changes, Bool.false_or, Bool.and_eq_true, Bool.and_eq_true,
      decide_eq_true_eq] at inside
    exact ⟨_, eq_of_valueKind? isOuter, inside.1.2, inside.2⟩
  · cases inside

section Rules

variable {context : Context} {bound : Nat} {options : TypeSyntaxOptions} {frame : Frame}
  {target : Ty} {one zero : Literal}

/-- The value of an assignment is of no matter for the type on the left. -/
theorem typesIn?_fill
    {value other : Branch} {left right : Ty} (isFirst : frame.IsFirst .right)
    (known : (frame.fill value).typeIn? context .left = some target)
    (leftType : (frame.fill other).typeIn? context .left = some left)
    (rightType : (frame.fill other).typeIn? context .right = some right) :
    left = target ∧ other.typeOf? context = some right := by
  have different : frame.role ≠ .left := by simp [isFirst.role_eq]
  rw [typeIn?_fill_of_ne different other value, known] at leftType
  rw [typeIn?_fill isFirst] at rightType
  exact ⟨(Option.some.inj leftType).symm, rightType⟩

/-- An `int` that is no literal is converted to a type with less room only inside of a cast to whole
numbers with no more room. -/
theorem narrowsInCast_of_isNeedlessUnder
    {kind : JvmKind} (isNumber : kind.isNumeric = true) (narrow : kind.width < 32)
    {payload : Payload} {types : Role → Option Ty} {role : Role}
    (needless : context.isNeedlessUnder (some payload) types role (.ofType (.primitive .int))
      (.primitive kind) = true) :
    NarrowsInCast (.primitive kind) role (some payload) (types .type) := by
  rw [Context.isNeedlessUnder.eq_def] at needless
  split at needless
  · rename_i isCast
    obtain ⟨isOperand, inside⟩ := Bool.and_eq_true_iff.mp needless
    obtain ⟨outer, outerType, inside⟩ := (Option.any_eq_true _ _).mp inside
    obtain ⟨outerKind, rfl, integral, width⟩ := exists_of_needlessInsideCast_narrow narrow inside
    exact ⟨isCast, eq_of_beq isOperand, kind, JvmKind.mem_of_narrow isNumber narrow, rfl,
      outerKind, outerType, integral, width⟩
  · obtain ⟨_, asOperand⟩ := Bool.and_eq_true_iff.mp needless
    simp [needlessAsOperand_narrow narrow] at asOperand
  · simp [needlessWhenStored_narrow narrow] at needless
  · simp [needlessWhenStored_narrow narrow] at needless
  · simp [needlessWhenStored_narrow narrow] at needless
  · cases needless

/-- A cast of a new conditional to a type with less room than an `int` is needless only inside of a
cast to whole numbers with no more room. -/
theorem WrapsInCast.narrowsInCast
    {kind : JvmKind} {conditional cast : Branch} (isNumber : kind.isNumeric = true)
    (narrow : kind.width < 32) (literals : truthLiterals? (.primitive kind) = some (one, zero))
    (chooses : conditional.ChoosesBetween bound one zero)
    (wraps : WrapsInCast context bound options (.primitive kind) conditional cast)
    (needless : cast.isNeedlessCast context (some frame) = true) :
    NarrowsInCast (.primitive kind) frame.role (some frame.payload)
      ((frame.fill cast).typeIn? context .type) := by
  obtain ⟨oneKind, zeroKind⟩ := kind_of_truthLiterals? literals
  rw [if_pos narrow] at oneKind zeroKind
  have castType : cast.typeIn? context .type = some (.primitive kind) := wraps.isCastTo.typeIn?_eq
  have differs : (Ty.primitive .int == Ty.primitive kind) = false := by
    cases kind <;> first | rfl | exact absurd narrow (by decide)
  rw [isNeedlessCast, castType, wraps.child?_eq, Option.bind_some,
    chooses.resolved?_eq oneKind zeroKind] at needless
  have around := (Bool.or_eq_true_iff.mp (Bool.and_eq_true_iff.mp needless).2).resolve_left
    (Bool.eq_false_iff.mp differs)
  exact narrowsInCast_of_isNeedlessUnder isNumber narrow around

/-- A cast of a new conditional to a type of numbers stays one. -/
theorem WrapsInCast.typeOf?_again
    {mayCut : Prop} {surroundings : Option Frame} {conditional cast result : Branch}
    (numeric : target.isNumeric = true) (literals : truthLiterals? target = some (one, zero))
    (chooses : conditional.ChoosesBetween bound one zero)
    (wraps : WrapsInCast context bound options target conditional cast)
    (mayConvert : MayConvert context bound mayCut surroundings cast result) :
    result.typeOf? context = some target := by
  obtain ⟨kind, isNumber, rfl⟩ := Ty.exists_kind_of_isNumeric numeric
  obtain ⟨oneKind, zeroKind⟩ := kind_of_truthLiterals? literals
  have conditionalNumber : (if kind.width < 32 then .int else kind).isNumeric = true := by
    split
    · rfl
    · exact isNumber
  have isCastTo := wraps.isCastTo
  rw [Ty.writable] at isCastTo
  have resultIsCastTo : result.IsCastTo bound (.primitive kind) := by
    refine mayConvert.isCastTo isCastTo wraps.child?_eq fun related sourceType => ?_
    rw [(related.choosesBetween chooses).typeOf?_eq oneKind zeroKind] at sourceType
    cases sourceType
    exact ⟨not_becomesNumber_of_isNumeric conditionalNumber,
      fun _ => not_becomesTruth_of_isNumeric numeric⟩
  exact resultIsCastTo.typeOf?_eq

variable {again : Option Frame → Branch → Branch → Prop} {node conditional condition result : Branch}

/-- What stands in the gap for a cast to a type is of that type, or else an `int` inside of a cast to
whole numbers with no more room. -/
def KeepsCastType (context : Context) (type : Ty) (frame : Frame) (branch result : Branch) : Prop :=
  result.typeOf? context = some type ∨
    result.typeOf? context = some (.primitive .int) ∧
      NarrowsInCast type frame.role (some frame.payload)
        ((frame.fill branch).typeIn? context .type)

theorem KeepsCastType.of_gap
    {type : Ty} {branch : Branch} (keeps : KeepsCastType context type frame branch result)
    (other : Branch) :
    KeepsCastType context type frame other result := by
  refine keeps.imp_right fun ⟨isInt, narrows⟩ => ⟨isInt, ?_⟩
  have different : frame.role ≠ .type := by simp [narrows.isOperand]
  rwa [typeIn?_fill_of_ne different branch other] at narrows

/-- What becomes of a new conditional keeps the type that it is for. -/
theorem FinishesConditional.keepsCastType
    {mayCut : Prop} (comes : ∀ surroundings branch result, again surroundings branch result →
      MayConvert context bound mayCut surroundings branch result)
    (written : context.typeSyntax ≠ none) (numeric : target.isNumeric = true)
    (literals : truthLiterals? target = some (one, zero))
    (isConditional : IsConditionalOf bound one zero condition conditional)
    (finishes : FinishesConditional context bound again frame target conditional result) :
    KeepsCastType context target frame conditional result := by
  have chooses := isConditional.choosesBetween
  obtain ⟨kind, isNumber, rfl⟩ := Ty.exists_kind_of_isNumeric numeric
  obtain ⟨oneKind, zeroKind⟩ := kind_of_truthLiterals? literals
  cases finishes with
  | wide isWide related =>
      have notNarrow : ¬ kind.width < 32 := by simpa [Ty.primitiveKind?] using isWide
      rw [if_neg notNarrow] at oneKind zeroKind
      exact Or.inl (((comes _ _ _ related).choosesBetween chooses).typeOf?_eq oneKind zeroKind)
  | unwritten _ none =>
      exact absurd none written
  | @needless _ cast _ isNarrow _ wraps isNeedless related =>
      have narrow : kind.width < 32 := by simpa [Ty.primitiveKind?] using isNarrow
      rw [if_pos narrow] at oneKind zeroKind
      have isInt : result.typeOf? context = some (.primitive .int) :=
        ((comes _ _ _ related).choosesBetween chooses).typeOf?_eq oneKind zeroKind
      have keeps : KeepsCastType context (.primitive kind) frame cast result :=
        Or.inr ⟨isInt, wraps.narrowsInCast isNumber narrow literals chooses isNeedless⟩
      exact keeps.of_gap conditional
  | needed _ _ wraps _ related =>
      exact Or.inl (wraps.typeOf?_again numeric literals chooses (comes _ _ _ related))

variable (comes : ∀ surroundings branch result, again surroundings branch result →
    ∃ fuel, Converts context bound False fuel surroundings branch result)
  (written : context.typeSyntax = some options)

section Again

include comes written

/-- What becomes of a new conditional in an assignment is of the type on the left. -/
theorem FinishesConditional.typeOf?_eq
    (isAssignment : frame.payload.handling = .assignment) (numeric : target.isNumeric = true)
    (literals : truthLiterals? target = some (one, zero))
    (isConditional : IsConditionalOf bound one zero condition conditional)
    (finishes : FinishesConditional context bound again frame target conditional result) :
    result.typeOf? context = some target := by
  rcases finishes.keepsCastType (fun _ _ _ related => Or.inr (comes _ _ _ related))
    (by simp [written]) numeric literals isConditional with same | ⟨_, narrows⟩
  · exact same
  · rw [Option.some.inj narrows.isCast] at isAssignment
    cases isAssignment

/-- The rule for simple assignments keeps a value or gives it the written type. -/
theorem TreatsAssignment.assignedAt
    (isAssignment : node.payload.handling = .assignment)
    (treats : TreatsAssignment context bound again node result) :
    result.AssignedAt context options := by
  intro _ target source leftType rightType
  cases treats with
  | unknown missing =>
      rcases missing with none | none
      · simp [none] at leftType
      · simp [none] at rightType
  | plain isFirst knownLeft knownRight casts noNumber noTruth =>
      obtain ⟨rfl, valueType⟩ := typesIn?_fill isFirst knownLeft leftType rightType
      cases casts with
      | kept plain =>
          rw [knownRight] at valueType
          cases valueType
          exact .kept noNumber noTruth (plain.resolve_right (by simp [written]))
      | cast _ known wraps =>
          rw [wraps.isCastTo.typeOf?_eq] at valueType
          rw [written] at known
          cases valueType
          cases known
          exact .written
  | noLiterals _ _ _ _ number none =>
      exact absurd none (truthLiterals?_ne_none number.2)
  | toNumber isFirst knownLeft _ _ number literals isConditional finishes =>
      obtain ⟨rfl, valueType⟩ := typesIn?_fill isFirst knownLeft leftType rightType
      rw [finishes.typeOf?_eq comes written isAssignment number.2 literals isConditional] at valueType
      cases valueType
      -- The value is now of the type on the left, and a primitive type is written as it is.
      obtain ⟨kind, _, rfl⟩ := Ty.exists_kind_of_isNumeric number.2
      exact .written
  | toTruth isFirst knownLeft _ _ truth isComparison related =>
      obtain ⟨rfl, valueType⟩ := typesIn?_fill isFirst knownLeft leftType rightType
      obtain ⟨fuel, converts⟩ := comes _ _ _ related
      obtain ⟨_, _⟩ := isComparison
      rw [typeOf?_of_comparison (converts.mayConvert.top_of_descend rfl).2 (by decide)] at valueType
      cases valueType
      rw [Ty.eq_of_isBoolean truth.2.2]
      exact .written

end Again

include written

/-- The rules are done with a simple assignment when they keep its value, or when the value is of the
type that they write for the left side. -/
theorem establishes_assignedAt :
    Establishes context bound (fun _ => True) fun _ => AssignedAt context options := by
  have noAssignment {branch : Branch} (other : branch.payload.handling ≠ .assignment) :
      branch.AssignedAt context options := fun isAssignment => absurd isAssignment other
  exact {
    other := fun _ _ _ _ => noAssignment
    access := fun _ isAccess treats _ => noAssignment (by simp [treats.payload_eq, isAccess])
    legalCast := fun _ _ isCast _ => noAssignment (by simp [isCast])
    detouredCast := fun {_ frame _ _ _ _} _ isCast _ _ _ _ =>
      noAssignment (isCast.trans_ne (by decide))
    insertedCast := fun _ _ _ _ _ _ wraps _ =>
      noAssignment (by simp [wraps.isCastTo.payload_eq, Payload.handling])
    assignment := fun _ comes isAssignment treats _ => treats.assignedAt comes written isAssignment }

end Rules

/-- A complete run leaves no simple assignment between truth values and numbers. -/
theorem Converts.throughout_unmixedAt
    {context : Context} {bound fuel : Nat} {surroundings : Option Frame} {branch result : Branch}
    (written : context.typeSyntax ≠ none)
    (attached : surroundings ≠ none ∨ branch.payload.handling ≠ .cast)
    (converts : Converts context bound False fuel surroundings branch result) :
    result.Throughout (UnmixedAt context) := by
  obtain ⟨options, knownSyntax⟩ := Option.ne_none_iff_exists'.mp written
  have assigned : result.Throughout (AssignedAt context options) :=
    .of_everywhere <| converts.gains (establishes_assignedAt knownSyntax) written attached
      (.of_all fun _ => trivial)
  intro inherited
  exact (assigned inherited).imp fun _ _ assignedAt isAssignment target source left right =>
    (assignedAt isAssignment target source left right).unmixed

end Branch

end TypedJava
