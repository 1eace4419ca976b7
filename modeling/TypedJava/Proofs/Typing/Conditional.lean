import TypedJava.Proofs.Conversion.Castable
import TypedJava.Proofs.NeedlessCast.Stored
import TypedJava.Proofs.Typing.OnTrees

/-! # Conditional expressions

The types of its arms give a conditional its type, by one of five rules. Each arm converts to it
without a cast, or is a literal that fits in it. -/

namespace TypedJava

namespace Ty

theorem eq_null_of_isNull {type : Ty} (isNull : type.isNull = true) : type = null := by
  cases type with
  | null => rfl
  | _ => cases isNull

/-- Every primitive type is one of values. -/
def HasValues (type : Ty) : Prop :=
  ∀ kind, type.primitiveKind? = some kind → kind.isPrimitive = true

end Ty

/-! ## Numbers -/

namespace JvmKind

/-- A promoted number only widens. -/
theorem eq_or_widensTo_of_binaryPromotion?
    {first second kind : JvmKind} (promoted : binaryPromotion? first second = some kind) :
    first = kind ∨ first.widensTo kind = true := by
  have widens : (binaryPromotion? first second).all
      (fun kind => first == kind || first.widensTo kind) = true := by
    cases first <;> cases second <;> rfl
  rw [promoted, Option.all_some, Bool.or_eq_true, beq_iff_eq] at widens
  exact widens

theorem isSome_binaryPromotion?
    {first second : JvmKind} (firstNumeric : first.isNumeric = true)
    (secondNumeric : second.isNumeric = true) :
    ∃ kind, binaryPromotion? first second = some kind := by
  rw [binaryPromotion?, firstNumeric, secondNumeric]
  split
  · contradiction
  · repeat' split
    all_goals exact ⟨_, rfl⟩

end JvmKind

namespace Conversion

theorem isImplicit_ofKinds_of_widensTo
    {target source : JvmKind} (widens : source.widensTo target = true) :
    (ofKinds target source).isImplicit = true := by
  revert widens
  cases source <;> cases target <;> decide

theorem ofKinds_self {kind : JvmKind} (isPrimitive : kind.isPrimitive = true) :
    ofKinds kind kind = identity := by
  simp [ofKinds, isPrimitive]

end Conversion

namespace Catalog

/-! ## Conversions to the type of a conditional -/

section Conversions

variable {catalog : Catalog} {target type box : Ty}

theorem isImplicit_conversion_of_beq (same : (target == type) = true) :
    (catalog.conversion target type).isImplicit = true := by
  rw [conversion.eq_def, if_pos same]
  rfl

/-- A primitive value or a boxed one converts to the kinds that its kind converts to. -/
theorem isImplicit_conversion_of_underlyingKind?
    {kind targetKind : JvmKind} (underlying : catalog.underlyingKind? type = some kind)
    (kinds : (Conversion.ofKinds targetKind kind).isImplicit = true) :
    (catalog.conversion (.primitive targetKind) type).isImplicit = true := by
  cases same : (Ty.primitive targetKind == type) with
  | true =>
      exact isImplicit_conversion_of_beq same
  | false =>
      rw [conversion.eq_def, same, if_neg Bool.false_ne_true]
      have targetIsPrimitive : targetKind.isPrimitive = true := by
        cases isPrimitive : targetKind.isPrimitive with
        | true => rfl
        | false => simp [Conversion.ofKinds, isPrimitive, Conversion.isImplicit] at kinds
      have unboxes (unboxed : catalog.unboxedKind? type = some kind) :
          (catalog.unboxing targetKind type).isImplicit = true := by
        rw [unboxing, targetIsPrimitive, unboxed]
        cases converts : Conversion.ofKinds targetKind kind with
        | identity => simp [converts, Conversion.isImplicit]
        | implicit => simp [converts, Conversion.isImplicit]
        | _ =>
            rw [converts] at kinds
            cases kinds
      cases type with
      | primitive source =>
          rw [underlyingKind?] at underlying
          split at underlying
          · cases underlying
            exact kinds
          · cases underlying
      | null => cases underlying
      | _ => exact unboxes underlying

theorem isImplicit_conversion_of_betweenReferences
    (targetIsReference : target.isReference = true) (isReference : type.isReference = true)
    (between : catalog.betweenReferences target type = .implicit) :
    (catalog.conversion target type).isImplicit = true := by
  cases same : (target == type) with
  | true =>
      exact isImplicit_conversion_of_beq same
  | false =>
      cases isNull : type.isNull with
      | false =>
          rw [conversion_eq_betweenReferences same targetIsReference isReference isNull, between]
          rfl
      | true =>
          cases type with
          | null =>
              rw [conversion.eq_def, same, if_neg Bool.false_ne_true]
              simp only [targetIsReference, if_true]
              rfl
          | _ => cases isNull

theorem isReference_of_boxedType? (boxed : catalog.boxedType? type = some box) :
    box.isReference = true := by
  cases type with
  | primitive kind =>
      obtain ⟨id, _, rfl⟩ := Option.map_eq_some_iff.mp boxed
      rfl
  | _ =>
      cases boxed
      rfl

/-- A value converts to what is above its reference type. -/
theorem isImplicit_conversion_of_boxedType?
    (boxed : catalog.boxedType? type = some box) (below : catalog.isSubtype box target = true) :
    (catalog.conversion target type).isImplicit = true := by
  have targetIsReference : target.isReference = true := by
    rw [← isReference_eq_of_isSubtypeWithin below, isReference_of_boxedType? boxed]
  cases type with
  | primitive kind =>
      have isBox : catalog.boxOf? kind = some box := boxed
      rw [conversion_eq_boxing targetIsReference, boxing, isBox]
      simp only [below, if_true]
      rfl
  | _ =>
      cases boxed
      exact isImplicit_conversion_of_betweenReferences targetIsReference rfl
        (betweenReferences_of_isSubtype below)

/-- Every value has a reference type. -/
theorem exists_boxedType? (catalog : Catalog) (hasValues : type.HasValues) :
    ∃ box, catalog.boxedType? type = some box := by
  cases type with
  | primitive kind =>
      obtain ⟨box, isBox⟩ := catalog.exists_boxOf? (hasValues kind rfl)
      exact ⟨_, isBox⟩
  | _ =>
      exact ⟨_, rfl⟩

/-- Every value converts to an object. -/
theorem isImplicit_conversion_objectType (hasValues : type.HasValues) :
    (catalog.conversion catalog.objectType type).isImplicit = true := by
  obtain ⟨box, boxed⟩ := catalog.exists_boxedType? hasValues
  cases type with
  | primitive kind =>
      refine isImplicit_conversion_of_boxedType? boxed ?_
      obtain ⟨id, _, rfl⟩ := Option.map_eq_some_iff.mp boxed
      exact (Ty.Erased.raw id).isSubtypeWithin_object rfl supertypeLimit
  | _ =>
      refine isImplicit_conversion_of_betweenReferences rfl rfl ?_
      rw [betweenReferences_eq (Or.inl rfl), betweenClasses, if_pos]
      exact beq_self_eq_true _

end Conversions

/-! ## The rules -/

/-- Two arms are typed as references: they are neither two truth values nor two numbers. -/
structure MeetAsReferences (catalog : Catalog) (first second : Ty) : Prop where
  notTruthValues : catalog.underlyingKind? first = some .boolean →
    catalog.underlyingKind? second ≠ some .boolean
  notNumbers : ∀ firstKind secondKind, catalog.underlyingKind? first = some firstKind →
    catalog.underlyingKind? second = some secondKind →
    (firstKind.isNumeric && secondKind.isNumeric) = false

/-- The rules that give a conditional with two arms its type. -/
inductive ArmsRule (catalog : Catalog) (whenTrue whenFalse : Resolved) : Ty → Prop
  | same :
      (whenTrue.type == whenFalse.type) = true → ArmsRule catalog whenTrue whenFalse whenTrue.type
  | null {other : Ty} :
      (whenTrue.type == whenFalse.type) = false →
      (whenTrue.type.isNull || whenFalse.type.isNull) = true →
      (if whenTrue.type.isNull then whenFalse.type else whenTrue.type) = other →
      ArmsRule catalog whenTrue whenFalse ((catalog.boxedType? other).getD other)
  | truthValues :
      (whenTrue.type == whenFalse.type) = false →
      (whenTrue.type.isNull || whenFalse.type.isNull) = false →
      catalog.underlyingKind? whenTrue.type = some .boolean →
      catalog.underlyingKind? whenFalse.type = some .boolean →
      ArmsRule catalog whenTrue whenFalse (.primitive .boolean)
  | numbers {first second : JvmKind} :
      (whenTrue.type == whenFalse.type) = false →
      (whenTrue.type.isNull || whenFalse.type.isNull) = false →
      catalog.underlyingKind? whenTrue.type = some first →
      catalog.underlyingKind? whenFalse.type = some second →
      first.isNumeric = true → second.isNumeric = true →
      ArmsRule catalog whenTrue whenFalse
        (catalog.numericArmsType first second whenTrue whenFalse)
  | references :
      (whenTrue.type == whenFalse.type) = false →
      (whenTrue.type.isNull || whenFalse.type.isNull) = false →
      catalog.MeetAsReferences whenTrue.type whenFalse.type →
      ArmsRule catalog whenTrue whenFalse
        (catalog.referenceArmsType whenTrue.type whenFalse.type)

section Rules

variable {catalog : Catalog} {whenTrue whenFalse : Resolved} {type : Ty}

theorem exists_armsRule (catalog : Catalog) (whenTrue whenFalse : Resolved) :
    ∃ type, catalog.ArmsRule whenTrue whenFalse type := by
  cases same : (whenTrue.type == whenFalse.type) with
  | true =>
      exact ⟨_, .same same⟩
  | false =>
      cases isNull : (whenTrue.type.isNull || whenFalse.type.isNull) with
      | true =>
          exact ⟨_, .null same isNull rfl⟩
      | false =>
          by_cases truthValues : catalog.underlyingKind? whenTrue.type = some .boolean ∧
              catalog.underlyingKind? whenFalse.type = some .boolean
          · exact ⟨_, .truthValues same isNull truthValues.1 truthValues.2⟩
          by_cases numbers : ∃ first second,
              catalog.underlyingKind? whenTrue.type = some first ∧
              catalog.underlyingKind? whenFalse.type = some second ∧
              (first.isNumeric && second.isNumeric) = true
          · obtain ⟨first, second, isFirst, isSecond, numeric⟩ := numbers
            obtain ⟨firstNumeric, secondNumeric⟩ := Bool.and_eq_true_iff.mp numeric
            exact ⟨_, .numbers same isNull isFirst isSecond firstNumeric secondNumeric⟩
          · refine ⟨_, .references same isNull ⟨fun isFirst isSecond => ?_, ?_⟩⟩
            · exact truthValues ⟨isFirst, isSecond⟩
            · intro first second isFirst isSecond
              cases numeric : (first.isNumeric && second.isNumeric) with
              | false => rfl
              | true => exact absurd ⟨first, second, isFirst, isSecond, numeric⟩ numbers

theorem ArmsRule.commonArmsType_eq (rule : catalog.ArmsRule whenTrue whenFalse type) :
    catalog.commonArmsType whenTrue whenFalse = type := by
  rw [commonArmsType]
  cases rule with
  | same same =>
      simp only [same, if_true]
  | null different isNull isOther =>
      simp only [different, isNull, isOther, Bool.false_eq_true, if_false, if_true]
  | truthValues different notNull isFirst isSecond =>
      simp only [different, notNull, isFirst, isSecond, Bool.false_eq_true, if_false]
  | numbers different notNull isFirst isSecond firstNumeric secondNumeric =>
      simp only [different, notNull, isFirst, isSecond, Bool.false_eq_true, if_false]
      split
      · rename_i isBoolean _
        cases isBoolean
        cases firstNumeric
      · rename_i foundFirst foundSecond
        cases foundFirst
        cases foundSecond
        rw [firstNumeric, secondNumeric]
        rfl
      · rename_i notNumbers
        exact absurd rfl (notNumbers _ _ rfl)
  | references different notNull references =>
      simp only [different, notNull, Bool.false_eq_true, if_false]
      split
      · rename_i isFirst isSecond
        exact absurd isSecond (references.notTruthValues isFirst)
      · rename_i first second _ isFirst isSecond
        rw [references.notNumbers first second isFirst isSecond]
        rfl
      · rfl

end Rules

/-! ## Both arms convert to the type of a conditional -/

/-- A value of an arm may stand where a value of the target type is expected: it converts without a
cast, or the arm is an `int` literal that fits in a target with less room. -/
inductive Accepts (catalog : Catalog) (target : Ty) (arm : Payload) (type : Ty) : Prop
  | implicit :
      (catalog.conversion target type).isImplicit = true → Accepts catalog target arm type
  | literal {kind : JvmKind} {value : Int32} :
      kind ∈ [.byte, .short, .char] → target = .primitive kind → arm = .literal (.int value) →
      kind.Holds value.toInt → Accepts catalog target arm type

section Sound

variable {catalog : Catalog} {whenTrue whenFalse : Resolved} {trueArm falseArm : Payload}
  {first second : JvmKind} {type : Ty}

theorem exists_of_narrowedKind?
    {kind narrowed : JvmKind} {other : Resolved}
    (narrows : narrowedKind? kind other = some narrowed) :
    narrowed = kind ∧ kind ∈ [.byte, .short, .char] ∧
      ∃ value, other.constant = some (.int value) ∧ kind.Holds value.toInt := by
  rw [narrowedKind?] at narrows
  split at narrows
  · rename_i value known
    split at narrows
    · rename_i fits
      cases narrows
      obtain ⟨isNarrow, representable⟩ := Bool.and_eq_true_iff.mp fits
      have narrowKind : kind ∈ [.byte, .short, .char] := List.contains_iff_mem.mp isNarrow
      refine ⟨rfl, narrowKind, value, known, ?_⟩
      have integral : kind.isIntegral = true := by
        revert narrowKind
        cases kind <;> decide
      have isInt : ((Literal.int value).kind? == some kind) = false := by
        revert narrowKind
        cases kind <;> simp [Literal.kind?]
      rw [Literal.representableIn, isInt, Bool.false_or] at representable
      refine JvmKind.holds_of_integerRepresentable representable integral ⟨_, rfl, ?_⟩
      have lower := value.le_toInt
      have upper := value.toInt_lt
      constructor <;> simp only <;> omega
    · cases narrows
  · cases narrows

/-- A number is accepted as any number of its own kind or of a wider one. -/
theorem accepts_of_widens
    {arm : Payload} {kind wider : JvmKind} (underlying : catalog.underlyingKind? type = some kind)
    (isNumeric : kind.isNumeric = true) (kinds : kind = wider ∨ kind.widensTo wider = true) :
    catalog.Accepts (.primitive wider) arm type := by
  refine .implicit (isImplicit_conversion_of_underlyingKind? underlying ?_)
  rcases kinds with rfl | widens
  · rw [Conversion.ofKinds_self (JvmKind.isPrimitive_of_isNumeric isNumeric)]
    rfl
  · exact Conversion.isImplicit_ofKinds_of_widensTo widens

section Numbers

variable (isFirst : catalog.underlyingKind? whenTrue.type = some first)
  (isSecond : catalog.underlyingKind? whenFalse.type = some second)
  (trueLiteral : ∀ literal, whenTrue.constant = some literal → trueArm = .literal literal)
  (falseLiteral : ∀ literal, whenFalse.constant = some literal → falseArm = .literal literal)

include isFirst isSecond trueLiteral falseLiteral

theorem accepts_numericArmsType
    (firstNumeric : first.isNumeric = true) (secondNumeric : second.isNumeric = true) :
    let type := catalog.numericArmsType first second whenTrue whenFalse
    catalog.Accepts type trueArm whenTrue.type ∧ catalog.Accepts type falseArm whenFalse.type := by
  have firstAccepts {kind : JvmKind} (kinds : first = kind ∨ first.widensTo kind = true) :
      catalog.Accepts (.primitive kind) trueArm whenTrue.type :=
    accepts_of_widens isFirst firstNumeric kinds
  have secondAccepts {kind : JvmKind} (kinds : second = kind ∨ second.widensTo kind = true) :
      catalog.Accepts (.primitive kind) falseArm whenFalse.type :=
    accepts_of_widens isSecond secondNumeric kinds
  rw [numericArmsType]
  split
  · rename_i shortAndByte
    rcases shortAndByte with ⟨rfl, rfl⟩ | ⟨rfl, rfl⟩
    · exact ⟨firstAccepts (Or.inl rfl), secondAccepts (Or.inr rfl)⟩
    · exact ⟨firstAccepts (Or.inr rfl), secondAccepts (Or.inl rfl)⟩
  · split
    · rename_i kind narrows
      rcases Option.or_eq_some_iff.mp narrows with narrows | ⟨_, narrows⟩
      · obtain ⟨rfl, narrow, value, known, holds⟩ := exists_of_narrowedKind? narrows
        exact ⟨firstAccepts (Or.inl rfl), .literal narrow rfl (falseLiteral _ known) holds⟩
      · obtain ⟨rfl, narrow, value, known, holds⟩ := exists_of_narrowedKind? narrows
        exact ⟨.literal narrow rfl (trueLiteral _ known) holds, secondAccepts (Or.inl rfl)⟩
    · obtain ⟨kind, promoted⟩ := JvmKind.isSome_binaryPromotion? firstNumeric secondNumeric
      have swapped : JvmKind.binaryPromotion? second first = some kind := by
        rw [JvmKind.binaryPromotion?_comm, promoted]
      rw [promoted]
      exact ⟨firstAccepts (JvmKind.eq_or_widensTo_of_binaryPromotion? promoted),
        secondAccepts (JvmKind.eq_or_widensTo_of_binaryPromotion? swapped)⟩

end Numbers

theorem isImplicit_conversion_referenceArmsType
    {first second : Ty} (firstHasValues : first.HasValues) (secondHasValues : second.HasValues) :
    (catalog.conversion (catalog.referenceArmsType first second) first).isImplicit = true ∧
      (catalog.conversion (catalog.referenceArmsType first second) second).isImplicit = true := by
  obtain ⟨firstBox, firstBoxed⟩ := catalog.exists_boxedType? firstHasValues
  obtain ⟨secondBox, secondBoxed⟩ := catalog.exists_boxedType? secondHasValues
  have itself (box : Ty) : catalog.isSubtype box box = true := isSubtypeWithin_self box _
  rw [referenceArmsType, firstBoxed, secondBoxed]
  simp only
  split
  · rename_i below
    exact ⟨isImplicit_conversion_of_boxedType? firstBoxed below,
      isImplicit_conversion_of_boxedType? secondBoxed (itself secondBox)⟩
  · split
    · rename_i above
      exact ⟨isImplicit_conversion_of_boxedType? firstBoxed (itself firstBox),
        isImplicit_conversion_of_boxedType? secondBoxed above⟩
    · exact ⟨isImplicit_conversion_objectType firstHasValues,
        isImplicit_conversion_objectType secondHasValues⟩

/-- The null type converts to the reference type of the other arm, as the other arm itself does. -/
theorem isImplicit_conversion_of_null (hasValues : type.HasValues) :
    (catalog.conversion ((catalog.boxedType? type).getD type) .null).isImplicit = true ∧
      (catalog.conversion ((catalog.boxedType? type).getD type) type).isImplicit = true := by
  obtain ⟨box, boxed⟩ := catalog.exists_boxedType? hasValues
  have boxIsReference := isReference_of_boxedType? boxed
  rw [boxed, Option.getD_some]
  have nullBoxed : catalog.boxedType? .null = some .null := rfl
  exact ⟨isImplicit_conversion_of_boxedType? nullBoxed (isSubtypeWithin_null boxIsReference _),
    isImplicit_conversion_of_boxedType? boxed (isSubtypeWithin_self box _)⟩

theorem ArmsRule.accepts
    (rule : catalog.ArmsRule whenTrue whenFalse type)
    (trueHasValues : whenTrue.type.HasValues) (falseHasValues : whenFalse.type.HasValues)
    (trueLiteral : ∀ literal, whenTrue.constant = some literal → trueArm = .literal literal)
    (falseLiteral : ∀ literal, whenFalse.constant = some literal → falseArm = .literal literal) :
    catalog.Accepts type trueArm whenTrue.type ∧ catalog.Accepts type falseArm whenFalse.type := by
  cases rule with
  | same same =>
      exact ⟨.implicit (isImplicit_conversion_of_beq BEq.rfl),
        .implicit (isImplicit_conversion_of_beq same)⟩
  | null different isNull isOther =>
      cases trueNull : whenTrue.type.isNull with
      | true =>
          have trueType : whenTrue.type = .null := Ty.eq_null_of_isNull trueNull
          rw [trueNull, if_pos rfl] at isOther
          subst isOther
          obtain ⟨nullConverts, otherConverts⟩ := isImplicit_conversion_of_null falseHasValues
          exact ⟨.implicit (trueType ▸ nullConverts), .implicit otherConverts⟩
      | false =>
          have falseType : whenFalse.type = .null := by
            rw [trueNull, Bool.false_or] at isNull
            exact Ty.eq_null_of_isNull isNull
          rw [trueNull, if_neg Bool.false_ne_true] at isOther
          subst isOther
          obtain ⟨nullConverts, otherConverts⟩ := isImplicit_conversion_of_null trueHasValues
          exact ⟨.implicit otherConverts, .implicit (falseType ▸ nullConverts)⟩
  | truthValues different notNull isFirst isSecond =>
      exact ⟨.implicit (isImplicit_conversion_of_underlyingKind? isFirst rfl),
        .implicit (isImplicit_conversion_of_underlyingKind? isSecond rfl)⟩
  | numbers different notNull isFirst isSecond firstNumeric secondNumeric =>
      exact accepts_numericArmsType isFirst isSecond trueLiteral falseLiteral firstNumeric
        secondNumeric
  | references different notNull references =>
      exact (isImplicit_conversion_referenceArmsType trueHasValues falseHasValues).imp
        .implicit .implicit

theorem commonArmsType_accepts
    (trueHasValues : whenTrue.type.HasValues) (falseHasValues : whenFalse.type.HasValues)
    (trueLiteral : ∀ literal, whenTrue.constant = some literal → trueArm = .literal literal)
    (falseLiteral : ∀ literal, whenFalse.constant = some literal → falseArm = .literal literal) :
    catalog.Accepts (catalog.commonArmsType whenTrue whenFalse) trueArm whenTrue.type ∧
      catalog.Accepts (catalog.commonArmsType whenTrue whenFalse) falseArm whenFalse.type := by
  obtain ⟨type, rule⟩ := catalog.exists_armsRule whenTrue whenFalse
  rw [rule.commonArmsType_eq]
  exact rule.accepts trueHasValues falseHasValues trueLiteral falseLiteral

end Sound

/-- What a conditional resolves to, given what its arms resolve to. -/
def conditionalResult? (catalog : Catalog) (whenTrue whenFalse : Option Resolved) :
    Option Resolved :=
  whenTrue.bind fun first =>
    whenFalse.map fun second => .ofType (catalog.commonArmsType first second)

end Catalog

theorem Payload.resolveWith_conditional
    (context : Context) (annotations : Annotations) (below : Below) :
    Payload.conditional.resolveWith context annotations below =
      context.catalog.conditionalResult? (below.child .trueExpression)
        (below.child .falseExpression) := by
  rw [resolveWith]
  cases below.child .trueExpression <;> cases below.child .falseExpression <;> rfl

namespace Store

variable {store : Store} {context : Context} {levels : Nat}

/-- The arms of a stored conditional are resolved one level below it. -/
theorem resolveWithin_conditional
    {node : NodeRef} (isConditional : store.payload? node = some .conditional) :
    store.resolveWithin context (levels + 1) node =
      context.catalog.conditionalResult?
        (store.resolveWithin context levels (store.childIn node .trueExpression))
        (store.resolveWithin context levels (store.childIn node .falseExpression)) := by
  obtain ⟨found, isNode, isPayload⟩ := Option.map_eq_some_iff.mp isConditional
  have byRule (lower : NodeRef → Option Resolved) (deeper : Option (NodeRef → Option Resolved)) :
      store.resolveNode context (some lower) deeper node =
        context.catalog.conditionalResult? (lower (store.childIn node .trueExpression))
          (lower (store.childIn node .falseExpression)) := by
    rw [resolveNode, isNode, Option.bind_some, isPayload, Payload.resolveWith_conditional]
    rfl
  match levels with
  | 0 | levels + 1 =>
      exact byRule _ _

/-- What resolves is a node. If its value is known, the node is the literal. -/
theorem exists_payload_of_resolveWithin
    {reference : NodeRef} {found : Resolved}
    (resolved : store.resolveWithin context levels reference = some found) :
    ∃ payload, store.payload? reference = some payload ∧
      ∀ literal, found.constant = some literal → payload = .literal literal := by
  obtain ⟨node, below, isNode, byRule⟩ := exists_resolveWith resolved
  refine ⟨node.payload, by rw [payload?, isNode, Option.map_some], ?_⟩
  intro literal known
  exact (Payload.resolveWith_literal byRule known).1

end Store

namespace Tree

variable {context : Context} {annotations : Annotations} {slots : List (Slot Tree)}
  {limit : DepthLimit} {whenTrue whenFalse : Tree}

theorem resolve_conditional
    (trueArm : (Slot.childrenIn slots .trueExpression).head? = some whenTrue)
    (falseArm : (Slot.childrenIn slots .falseExpression).head? = some whenFalse) :
    (node .conditional annotations slots).resolve context limit =
      limit.down?.bind fun lower =>
        context.catalog.conditionalResult? (whenTrue.resolve context lower)
          (whenFalse.resolve context lower) := by
  rw [resolve_eq, Payload.resolveWith_conditional]
  simp only [belowSlots, resolveRole_eq, trueArm, falseArm, Option.bind_some]
  cases limit.down? <;> rfl

end Tree

/-- Where the arms of a conditional have types of values, the conditional has a type at which both
arms are accepted. This holds for a conditional in any store, and for trees under any limit. -/
theorem Context.conditional_accepts_arms (context : Context) :
    (∀ (store : Store) (node : NodeRef) (levels : Nat) (first second : Resolved),
      store.payload? node = some .conditional →
      store.resolveWithin context levels (store.childIn node .trueExpression) = some first →
      store.resolveWithin context levels (store.childIn node .falseExpression) = some second →
      first.type.HasValues → second.type.HasValues →
      ∃ type trueArm falseArm,
        store.resolveWithin context (levels + 1) node = some (.ofType type) ∧
        store.payload? (store.childIn node .trueExpression) = some trueArm ∧
        store.payload? (store.childIn node .falseExpression) = some falseArm ∧
        context.catalog.Accepts type trueArm first.type ∧
        context.catalog.Accepts type falseArm second.type) ∧
    (∀ (annotations : Annotations) (slots : List (Slot Tree)) (limit lower : DepthLimit)
      (whenTrue whenFalse : Tree) (first second : Resolved),
      limit.down? = some lower →
      (Slot.childrenIn slots .trueExpression).head? = some whenTrue →
      (Slot.childrenIn slots .falseExpression).head? = some whenFalse →
      whenTrue.resolve context lower = some first →
      whenFalse.resolve context lower = some second →
      first.type.HasValues → second.type.HasValues →
      ∃ type, (Tree.node .conditional annotations slots).resolve context limit =
          some (.ofType type) ∧
        context.catalog.Accepts type whenTrue.payload first.type ∧
        context.catalog.Accepts type whenFalse.payload second.type) := by
  constructor
  · intro store node levels first second isConditional trueFound falseFound trueHasValues
      falseHasValues
    obtain ⟨trueArm, isTrueArm, trueLiteral⟩ := Store.exists_payload_of_resolveWithin trueFound
    obtain ⟨falseArm, isFalseArm, falseLiteral⟩ := Store.exists_payload_of_resolveWithin falseFound
    refine ⟨context.catalog.commonArmsType first second, trueArm, falseArm, ?_, isTrueArm,
      isFalseArm, Catalog.commonArmsType_accepts trueHasValues falseHasValues trueLiteral
        falseLiteral⟩
    rw [Store.resolveWithin_conditional isConditional, trueFound, falseFound]
    rfl
  · intro annotations slots limit lower whenTrue whenFalse first second down trueArm falseArm
      trueFound falseFound trueHasValues falseHasValues
    refine ⟨context.catalog.commonArmsType first second, ?_,
      Catalog.commonArmsType_accepts trueHasValues falseHasValues
        (fun _ known => (Tree.resolve_literal trueFound known).1)
        (fun _ known => (Tree.resolve_literal falseFound known).1)⟩
    rw [Tree.resolve_conditional trueArm falseArm, down, Option.bind_some, trueFound, falseFound]
    rfl

/-- A variable of a type. -/
def Tree.variableOf (type : Ty) : Tree :=
  node (.identifier "x") ⟨none, some type⟩ []

/-- Builds the expression `c ? x : 7`, which is node 3, with an `x` of the type `byte`. -/
def buildByteConditional : Edit NodeId := do
  let condition ← Edit.mkNode (.identifier "c")
  let whenTrue ← Edit.mkNode (.identifier "x")
  Edit.setType (some whenTrue) (.primitive .byte)
  let whenFalse ← Edit.mkLiteral (.int 7)
  Edit.mkConditional (some condition) (some whenTrue) (some whenFalse)

/-- The literal `7` is accepted as the `byte` that the other arm asks for. -/
theorem Context.conditional_accepts_arms_of_byte :
    let context := Context.ofCatalog .standard
    let store := (buildByteConditional.run .empty).2
    let slots : List (Slot Tree) := [⟨.trueExpression, [.variableOf (.primitive .byte)]⟩,
      ⟨.falseExpression, [.node (.literal (.int 7)) .empty []]⟩]
    (∃ type, store.resolve context (some 3) = some (.ofType type) ∧
      context.catalog.Accepts type (.identifier "x") (.primitive .byte) ∧
      context.catalog.Accepts type (.literal (.int 7)) (.primitive .int)) ∧
    ∃ type, (Tree.node .conditional .empty slots).resolve context resolveLimit =
        some (.ofType type) ∧
      context.catalog.Accepts type (.identifier "x") (.primitive .byte) ∧
      context.catalog.Accepts type (.literal (.int 7)) (.primitive .int) := by
  intro context store slots
  have byteHasValues : (Ty.primitive .byte).HasValues := by
    rintro kind ⟨⟩
    rfl
  have intHasValues : (Ty.primitive .int).HasValues := by
    rintro kind ⟨⟩
    rfl
  obtain ⟨stored, onTrees⟩ := context.conditional_accepts_arms
  constructor
  · obtain ⟨type, trueArm, falseArm, resolved, isTrueArm, isFalseArm, accepted⟩ :=
      stored store (some 3) 255 (.ofType (.primitive .byte)) ⟨.primitive .int, some (.int 7)⟩ rfl
        rfl rfl byteHasValues intHasValues
    cases isTrueArm
    cases isFalseArm
    exact ⟨type, resolved, accepted⟩
  · exact onTrees .empty slots resolveLimit (some 255) _ _ (.ofType (.primitive .byte))
      ⟨.primitive .int, some (.int 7)⟩ rfl rfl rfl rfl rfl byteHasValues intHasValues

end TypedJava
