import TypedJava.Proofs.NeedlessCast.Nested
import TypedJava.Proofs.Typing.Conditional

/-! # Needless casts of operands

Where a cast of an operand is judged needless, the kind that it casts to has every number that the
operand can be, and the operation is carried out in the same kind with and without the cast. So it
combines the same numbers in the same way. -/

namespace TypedJava

namespace Decimal.BinaryFormat

/-- The whole number is one of the format: a significand that fits, times a power of two within the
range of exponents. -/
def HasWhole (format : BinaryFormat) (value : Int) : Prop :=
  ∃ (significand : Int) (exponent : Nat), value = significand * 2 ^ exponent ∧
    significand.natAbs < 2 ^ format.precision ∧
    exponent + format.precision ≤ 2 ^ (format.exponentBits - 1)

/-- A format has every whole number up to the first that does not fit into its significand. That
one is a power of two. -/
theorem hasWhole_of_natAbs_le
    {format : BinaryFormat} {value : Int} (hasDigits : 0 < format.precision)
    (wide : format.precision < 2 ^ (format.exponentBits - 1))
    (fits : value.natAbs ≤ 2 ^ format.precision) :
    format.HasWhole value := by
  by_cases less : value.natAbs < 2 ^ format.precision
  · exact ⟨value, 0, by omega, less, by omega⟩
  · have greatest : value.natAbs = 2 ^ format.precision := by omega
    have double : 2 ^ format.precision = 2 * 2 ^ (format.precision - 1) := by
      rw [← Nat.pow_succ']
      congr 1
      omega
    have positive : 0 < 2 ^ (format.precision - 1) := Nat.two_pow_pos _
    exact ⟨value / 2, 1, by omega, by omega, by omega⟩

end Decimal.BinaryFormat

/-- The whole number is a value of the kind of numbers. -/
def JvmKind.HasWhole (kind : JvmKind) (value : Int) : Prop :=
  kind.Holds value ∨ ∃ format ∈ kind.format?, format.HasWhole value

/-- A kind has every number whose value the conversion to the kind preserves. A known value is that
of a literal of the kind that the number comes from. -/
theorem hasWhole_of_preservesValue
    {source target : JvmKind} {constant : Option Literal} {value : Int}
    (preserves : preservesValue source target constant = true)
    (integral : source.isIntegral = true) (numeric : target.isNumeric = true)
    (held : source.Holds value)
    (known : ∀ literal, constant = some literal →
      literal.kind? = some source ∧ literal.integer? = some value) :
    target.HasWhole value := by
  cases floating : target.isFloating with
  | false =>
      have targetIntegral := JvmKind.isIntegral_of_isNumeric numeric floating
      exact Or.inl (holds_of_preservesValue preserves targetIntegral held known)
  | true =>
      have representable := integerRepresentable_of_known preserves integral floating held known
      right
      cases target with
      | float =>
          have fits : value.natAbs ≤ 2 ^ 24 := of_decide_eq_true representable
          exact ⟨.single, rfl,
            Decimal.BinaryFormat.hasWhole_of_natAbs_le (by decide) (by decide) fits⟩
      | double =>
          have fits : value.natAbs ≤ 2 ^ 53 := of_decide_eq_true representable
          exact ⟨.double, rfl,
            Decimal.BinaryFormat.hasWhole_of_natAbs_le (by decide) (by decide) fits⟩
      | _ => cases floating

namespace Store

/-- A cast is an operand of a binary expression, and the other operand stands in a role. -/
inductive CastsOperand (store : Store) (cast parent : NodeId) : (otherRole : Role) → Prop
  | left {operator : BinaryOperator} :
      store.place? (some cast) = some ⟨parent, .left⟩ →
      store.payload? (some parent) = some (.binary operator) →
      CastsOperand store cast parent .right
  | right {operator : BinaryOperator} :
      store.place? (some cast) = some ⟨parent, .right⟩ →
      store.payload? (some parent) = some (.binary operator) →
      CastsOperand store cast parent .left

section Operand

variable {store : Store} {context : Context} {cast parent : NodeId} {otherRole : Role}
  {castKind sourceKind : JvmKind}

/-- The primitive kind of the operand in a role, also of one in a box. -/
def operandKind? (store : Store) (context : Context) (parent : NodeId) (role : Role) :
    Option JvmKind :=
  (store.typeOf? context (store.childIn (some parent) role)).bind context.catalog.underlyingKind?

theorem CastsOperand.exists_place
    (isOperand : store.CastsOperand cast parent otherRole) (context : Context) :
    ∃ place, store.place? (some cast) = some place ∧ ∀ source castType,
      store.isNeedlessAt context place source castType = true →
        (store.operandKind? context parent otherRole).any (needlessAsOperand source castType) =
          true := by
  cases isOperand with
  | left placed isBinary =>
      refine ⟨_, placed, fun source castType needless => ?_⟩
      rw [isNeedlessAt, isBinary] at needless
      exact (Bool.and_eq_true_iff.mp needless).2
  | right placed isBinary =>
      refine ⟨_, placed, fun source castType needless => ?_⟩
      rw [isNeedlessAt, isBinary] at needless
      exact (Bool.and_eq_true_iff.mp needless).2

/-- A cast of an operand that is judged needless keeps the kind of the operand, or it preserves the
value and has no influence on the kind in which the operation is carried out. -/
theorem CastsOperand.eq_or_needlessAsOperand
    (isOperand : store.CastsOperand cast parent otherRole)
    (castType : store.typeOf? context (store.childIn (some cast) .type) =
      some (.primitive castKind))
    (sourceType : store.typeOf? context (store.childIn (some cast) .expression) =
      some (.primitive sourceKind))
    (needless : store.isNeedlessCast context (some cast) = true) :
    sourceKind = castKind ∨ ∃ source other,
      store.resolve context (store.childIn (some cast) .expression) = some source ∧
      source.type = .primitive sourceKind ∧
      store.operandKind? context parent otherRole = some other ∧
      needlessAsOperand source (.primitive castKind) other = true := by
  obtain ⟨source, resolved, isSource⟩ := Option.map_eq_some_iff.mp sourceType
  obtain ⟨place, placed, asOperand⟩ := isOperand.exists_place context
  have judged := (Bool.and_eq_true_iff.mp needless).2
  rw [castType, resolved] at judged
  simp only [placed] at judged
  rcases Bool.or_eq_true_iff.mp judged with same | atPlace
  · rw [isSource] at same
    have sameKind : (sourceKind == castKind) = true := same
    exact Or.inl (by simpa using sameKind)
  · have rule := asOperand _ _ atPlace
    cases found : store.operandKind? context parent otherRole with
    | none =>
        rw [found] at rule
        cases rule
    | some other =>
        rw [found] at rule
        exact Or.inr ⟨source, other, resolved, isSource, rfl, rule⟩

theorem valueKind?_primitive {kind other : JvmKind}
    (found : (Ty.primitive kind).valueKind? = some other) :
    kind = other := by
  revert found
  cases kind <;> cases other <;> decide

/-- What the rule for operands asks of a cast from one kind to another. -/
theorem needlessAsOperand_iff
    {source : Resolved} {other : JvmKind} (isSource : source.type = .primitive sourceKind) :
    needlessAsOperand source (.primitive castKind) other = true ↔
      sourceKind.isNumeric = true ∧ castKind.isNumeric = true ∧ other.isNumeric = true ∧
        preservesValue sourceKind castKind source.constant = true ∧
        JvmKind.binaryPromotion? castKind other = JvmKind.binaryPromotion? sourceKind other := by
  rw [needlessAsOperand, isSource]
  constructor
  · intro rule
    cases sourceValue : (Ty.primitive sourceKind).valueKind? with
    | none => simp [sourceValue] at rule
    | some source' =>
        cases castValue : (Ty.primitive castKind).valueKind? with
        | none => simp [sourceValue, castValue] at rule
        | some cast' =>
            cases valueKind?_primitive sourceValue
            cases valueKind?_primitive castValue
            simpa [sourceValue, castValue, and_assoc] using rule
  · rintro ⟨sourceNumeric, castNumeric, rest⟩
    simp [valueKind?_of_isNumeric sourceNumeric, valueKind?_of_isNumeric castNumeric,
      sourceNumeric, castNumeric, rest]

/-- Where a cast of a whole number is judged needless as an operand, the kind that it casts to has
the number, and the operation is carried out in the same kind with and without the cast. If the cast
does not keep the kind of the number, then both operands are numbers and there is such a kind. -/
theorem hasWhole_and_promotes_of_isNeedlessCast
    (isOperand : store.CastsOperand cast parent otherRole)
    (castType : store.typeOf? context (store.childIn (some cast) .type) =
      some (.primitive castKind))
    (sourceType : store.typeOf? context (store.childIn (some cast) .expression) =
      some (.primitive sourceKind))
    (sourceIntegral : sourceKind.isIntegral = true)
    (needless : store.isNeedlessCast context (some cast) = true) :
    (∀ value, sourceKind.Holds value →
      (∀ literal, store.payload? (store.childIn (some cast) .expression) =
        some (.literal literal) → literal.integer? = some value) →
      castKind.HasWhole value) ∧
    (∀ other, store.operandKind? context parent otherRole = some other →
      JvmKind.binaryPromotion? castKind other = JvmKind.binaryPromotion? sourceKind other) ∧
    (sourceKind ≠ castKind → ∃ other common,
      store.operandKind? context parent otherRole = some other ∧
      JvmKind.binaryPromotion? castKind other = some common ∧
      JvmKind.binaryPromotion? sourceKind other = some common) := by
  rcases isOperand.eq_or_needlessAsOperand castType sourceType needless with
    rfl | ⟨source, other, resolved, isSource, found, rule⟩
  · exact ⟨fun _ held _ => Or.inl held, fun _ _ => rfl, fun different => absurd rfl different⟩
  · obtain ⟨sourceNumeric, castNumeric, otherNumeric, preserves, promotion⟩ :=
      (needlessAsOperand_iff isSource).mp rule
    refine ⟨fun value held known => ?_, fun another isOther => ?_, fun _ => ?_⟩
    · refine hasWhole_of_preservesValue preserves sourceIntegral castNumeric held ?_
      intro literal constant
      obtain ⟨kind, payload⟩ := kind?_of_constant resolved isSource constant
      exact ⟨kind, known literal payload⟩
    · rw [found] at isOther
      cases isOther
      exact promotion
    · obtain ⟨common, isCommon⟩ := JvmKind.isSome_binaryPromotion? castNumeric otherNumeric
      exact ⟨other, common, found, isCommon, promotion ▸ isCommon⟩

end Operand

/-! ### The last number before the gaps -/

/-- Builds `(float) value + x` with `x` of type `double`. The cast is node 2 and the sum is
node 6. -/
def floatSummand (value : Literal) : Edit NodeId := do
  let operand ← Edit.mkLiteral value
  let written ← Edit.mkNamedType "float" []
  let cast ← Edit.mkCast (some written) (some operand)
  let right ← Edit.mkNode (.identifier "x")
  Edit.setType (some right) (.primitive .double)
  Edit.mkBinary .add (some cast) (some right)

/-- The cast in `(float) 16777216 + x` is judged needless for an `x` of type `double`: a `float` can
still be the number, and the sum is one of two `double` numbers in any case. -/
theorem hasWhole_and_promotes_of_floatSummand :
    let context := Context.ofCatalog .standard
    let store := ((floatSummand (.int 16777216)).run Store.empty).2
    store.CastsOperand 2 6 .right ∧
      store.typeOf? context (store.childIn (some 2) .type) = some (.primitive .float) ∧
      store.typeOf? context (store.childIn (some 2) .expression) = some (.primitive .int) ∧
      store.isNeedlessCast context (some 2) = true ∧ JvmKind.int.Holds 16777216 ∧
      JvmKind.float.HasWhole 16777216 ∧ ∃ other common,
        store.operandKind? context 6 .right = some other ∧
        JvmKind.binaryPromotion? .float other = some common ∧
        JvmKind.binaryPromotion? .int other = some common := by
  intro context store
  have isOperand : store.CastsOperand 2 6 .right := .left rfl rfl
  have needless : store.isNeedlessCast context (some 2) = true := by decide +kernel
  have castType : store.typeOf? context (store.childIn (some 2) .type) =
      some (.primitive .float) := rfl
  have held : JvmKind.int.Holds 16777216 := ⟨_, rfl, by decide⟩
  obtain ⟨represented, _, promoted⟩ :=
    hasWhole_and_promotes_of_isNeedlessCast isOperand castType rfl rfl needless
  refine ⟨isOperand, castType, rfl, needless, held, represented _ held ?_, promoted (by decide)⟩
  rintro literal ⟨⟩
  rfl

end Store

end TypedJava
