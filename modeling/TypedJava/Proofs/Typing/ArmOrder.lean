import TypedJava.Proofs.Edit.Structural
import TypedJava.Proofs.Supertypes.Ascent
import TypedJava.Proofs.Typing.Conditional

/-! # The order of the arms of a conditional

The order of the arms makes a difference to the type of a conditional only where two different
reference types are subtypes of each other, as a raw class and its parameterizations are: then the
second arm wins. -/

namespace TypedJava

namespace Ty

mutual

theorem same_comm : (first second : Ty) → same first second = same second first
  | classType definition arguments, second => by
      cases second with
      | classType other others =>
          simp only [same, sameList_comm arguments others, Bool.beq_comm]
      | _ => rfl
  | upperWildcard upper, second => by
      cases second with
      | upperWildcard other => exact same_comm upper other
      | _ => rfl
  | lowerWildcard lower, second => by
      cases second with
      | lowerWildcard other => exact same_comm lower other
      | _ => rfl
  | array element, second => by
      cases second with
      | array other => exact same_comm element other
      | _ => rfl
  | primitive _, second => by cases second <;> simp only [same, Bool.beq_comm]
  | typeVariable _ _, second => by cases second <;> simp only [same, Bool.beq_comm]
  | unboundedWildcard, second => by cases second <;> rfl
  | null, second => by cases second <;> rfl

theorem sameList_comm :
    (firsts seconds : List Ty) → sameList firsts seconds = sameList seconds firsts
  | [], seconds => by cases seconds <;> rfl
  | first :: firsts, seconds => by
      cases seconds with
      | nil => rfl
      | cons second seconds =>
          simp only [sameList, same_comm first second, sameList_comm firsts seconds]

end

theorem beq_comm (first second : Ty) : (first == second) = (second == first) :=
  same_comm first second

/-- Of two different types one of which is the null type, the other one does not depend on their
order. -/
theorem nonNull_comm
    {first second : Ty} (different : (first == second) = false)
    (isNull : (first.isNull || second.isNull) = true) :
    (if first.isNull then second else first) = if second.isNull then first else second := by
  cases firstNull : first.isNull <;> cases secondNull : second.isNull
  · rw [firstNull, secondNull] at isNull
    cases isNull
  · rfl
  · rfl
  · rw [eq_null_of_isNull firstNull, eq_null_of_isNull secondNull] at different
    cases different

end Ty

namespace Catalog

/-- Two types of arms are entangled if they are typed as references that are different but subtypes
of each other. -/
structure Entangled (catalog : Catalog) (first second : Ty) : Prop
    extends catalog.MeetAsReferences first second where
  mutualSubtypes : ∃ firstBox secondBox, catalog.boxedType? first = some firstBox ∧
    catalog.boxedType? second = some secondBox ∧ (firstBox == secondBox) = false ∧
    catalog.isSubtype firstBox secondBox = true ∧ catalog.isSubtype secondBox firstBox = true

section Order

variable {catalog : Catalog} {whenTrue whenFalse : Resolved} {first second : Ty}

theorem MeetAsReferences.swap (references : catalog.MeetAsReferences first second) :
    catalog.MeetAsReferences second first where
  notTruthValues isSecond isFirst := references.notTruthValues isFirst isSecond
  notNumbers secondKind firstKind isSecond isFirst := by
    rw [Bool.and_comm]
    exact references.notNumbers firstKind secondKind isFirst isSecond

theorem not_entangled_of_beq (same : (first == second) = true) :
    ¬catalog.Entangled first second := by
  rintro ⟨_, firstBox, secondBox, firstBoxed, secondBoxed, different, _⟩
  cases first with
  | primitive kind =>
      cases second with
      | primitive other =>
          have sameKind : (kind == other) = true := same
          cases eq_of_beq sameKind
          cases firstBoxed.symm.trans secondBoxed
          rw [beq_self_eq_true] at different
          cases different
      | _ => cases same
  | _ =>
      cases firstBoxed
      cases second with
      | primitive other => cases same
      | _ =>
          cases secondBoxed
          rw [same] at different
          cases different

/-- Only the null type is below the null type. -/
theorem isNull_of_isSubtypeWithin
    {fuel : Nat} (below : catalog.isSubtypeWithin fuel first .null = true) :
    first.isNull = true := by
  cases fuel with
  | zero =>
      cases below
  | succ fuel =>
      rw [isSubtypeWithin.eq_def, Bool.or_eq_true] at below
      cases first with
      | null => rfl
      | _ => rcases below with same | below <;> contradiction

theorem not_entangled_of_isNull
    (different : (first == second) = false) (isNull : (first.isNull || second.isNull) = true) :
    ¬catalog.Entangled first second := by
  rintro ⟨_, firstBox, secondBox, firstBoxed, secondBoxed, boxesDiffer, below, above⟩
  have bothNull : firstBox = .null ∧ secondBox = .null := by
    rcases Bool.or_eq_true_iff.mp isNull with firstNull | secondNull
    · cases Ty.eq_null_of_isNull firstNull
      cases firstBoxed
      exact ⟨rfl, Ty.eq_null_of_isNull (isNull_of_isSubtypeWithin above)⟩
    · cases Ty.eq_null_of_isNull secondNull
      cases secondBoxed
      exact ⟨Ty.eq_null_of_isNull (isNull_of_isSubtypeWithin below), rfl⟩
  rw [bothNull.1, bothNull.2] at boxesDiffer
  cases boxesDiffer

theorem numericArmsType_comm
    {firstKind secondKind : JvmKind}
    (falseInt : ∀ value, whenFalse.constant = some (.int value) → secondKind = .int) :
    catalog.numericArmsType firstKind secondKind whenTrue whenFalse =
      catalog.numericArmsType secondKind firstKind whenFalse whenTrue := by
  have narrowComm : (narrowedKind? firstKind whenFalse).or (narrowedKind? secondKind whenTrue) =
      (narrowedKind? secondKind whenTrue).or (narrowedKind? firstKind whenFalse) := by
    cases firstNarrows : narrowedKind? firstKind whenFalse with
    | none =>
        rw [Option.none_or, Option.or_none]
    | some kind =>
        -- The literal that narrows is an `int`, so its own kind does not narrow.
        obtain ⟨_, _, value, known, _⟩ := exists_of_narrowedKind? firstNarrows
        cases secondNarrows : narrowedKind? secondKind whenTrue with
        | none =>
            rfl
        | some other =>
            obtain ⟨_, isNarrow, _⟩ := exists_of_narrowedKind? secondNarrows
            rw [falseInt value known] at isNarrow
            simp at isNarrow
  rw [numericArmsType, numericArmsType, narrowComm, JvmKind.binaryPromotion?_comm]
  refine ite_congr (propext ?_) (fun _ => rfl) (fun _ => rfl)
  rw [@and_comm (firstKind = .short), @and_comm (firstKind = .byte), or_comm]

theorem referenceArmsType_comm_iff (references : catalog.MeetAsReferences first second) :
    (catalog.referenceArmsType first second == catalog.referenceArmsType second first) = true ↔
      ¬catalog.Entangled first second := by
  rw [referenceArmsType, referenceArmsType]
  cases firstBoxed : catalog.boxedType? first with
  | none =>
      refine iff_of_true ?_ ?_
      · cases catalog.boxedType? second <;> exact beq_self_eq_true _
      · rintro ⟨_, firstBox, secondBox, isBox, _⟩
        cases firstBoxed.symm.trans isBox
  | some firstBox =>
      cases secondBoxed : catalog.boxedType? second with
      | none =>
          refine iff_of_true (beq_self_eq_true _) ?_
          rintro ⟨_, _, secondBox, _, isBox, _⟩
          cases secondBoxed.symm.trans isBox
      | some secondBox =>
          have entangledIff : catalog.Entangled first second ↔ (firstBox == secondBox) = false ∧
              catalog.isSubtype firstBox secondBox = true ∧
              catalog.isSubtype secondBox firstBox = true := by
            constructor
            · rintro ⟨_, _, _, isFirst, isSecond, mutualSubtypes⟩
              cases firstBoxed.symm.trans isFirst
              cases secondBoxed.symm.trans isSecond
              exact mutualSubtypes
            · intro mutualSubtypes
              exact ⟨references, firstBox, secondBox, firstBoxed, secondBoxed, mutualSubtypes⟩
          rw [entangledIff]
          cases below : catalog.isSubtype firstBox secondBox <;>
            cases above : catalog.isSubtype secondBox firstBox
          · simp [below, above]
          · simp [below, above]
          · simp [below, above]
          · simp [below, above, Ty.beq_comm firstBox secondBox]

/-- The order of the arms makes a difference to the type exactly if the arms are entangled. -/
theorem commonArmsType_comm_iff
    (falseInt : ∀ value, whenFalse.constant = some (.int value) →
      whenFalse.type = .primitive .int) :
    (catalog.commonArmsType whenTrue whenFalse ==
        catalog.commonArmsType whenFalse whenTrue) = true ↔
      ¬catalog.Entangled whenTrue.type whenFalse.type := by
  obtain ⟨type, rule⟩ := exists_armsRule catalog whenTrue whenFalse
  rw [rule.commonArmsType_eq]
  have swappedNull (notNull : (whenTrue.type.isNull || whenFalse.type.isNull) = false) :
      (whenFalse.type.isNull || whenTrue.type.isNull) = false := by
    rw [Bool.or_comm, notNull]
  have swappedDifferent (different : (whenTrue.type == whenFalse.type) = false) :
      (whenFalse.type == whenTrue.type) = false := by
    rw [Ty.beq_comm, different]
  cases rule with
  | same same =>
      have swapped : (whenFalse.type == whenTrue.type) = true := by
        rw [Ty.beq_comm, same]
      rw [(ArmsRule.same swapped).commonArmsType_eq]
      exact iff_of_true same (not_entangled_of_beq same)
  | null different isNull isOther =>
      have swapped : (whenFalse.type.isNull || whenTrue.type.isNull) = true := by
        rw [Bool.or_comm, isNull]
      have sameOther := isOther
      rw [Ty.nonNull_comm different isNull] at sameOther
      rw [(ArmsRule.null (swappedDifferent different) swapped sameOther).commonArmsType_eq]
      exact iff_of_true (beq_self_eq_true _) (not_entangled_of_isNull different isNull)
  | truthValues different notNull isFirst isSecond =>
      rw [(ArmsRule.truthValues (swappedDifferent different) (swappedNull notNull) isSecond
        isFirst).commonArmsType_eq]
      exact iff_of_true rfl fun entangled => entangled.notTruthValues isFirst isSecond
  | numbers different notNull isFirst isSecond firstNumeric secondNumeric =>
      rw [(ArmsRule.numbers (swappedDifferent different) (swappedNull notNull) isSecond isFirst
        secondNumeric firstNumeric).commonArmsType_eq]
      refine iff_of_true ?_ fun entangled => ?_
      · rw [numericArmsType_comm]
        · exact beq_self_eq_true _
        · intro value known
          rw [falseInt value known] at isSecond
          exact (Option.some.inj isSecond).symm
      · have notBoth := entangled.notNumbers _ _ isFirst isSecond
        rw [firstNumeric, secondNumeric] at notBoth
        cases notBoth
  | references different notNull references =>
      rw [(ArmsRule.references (swappedDifferent different) (swappedNull notNull)
        references.swap).commonArmsType_eq]
      exact referenceArmsType_comm_iff references

/-- What a conditional resolves to depends on the order of its arms exactly if both arms are known
and entangled. -/
theorem conditionalResult?_comm_iff
    {trueResult falseResult : Option Resolved}
    (falseInt : ∀ found value, falseResult = some found → found.constant = some (.int value) →
      found.type = .primitive .int) :
    ((catalog.conditionalResult? trueResult falseResult).map (·.type) ==
        (catalog.conditionalResult? falseResult trueResult).map (·.type)) = true ↔
      ¬∃ first second, trueResult = some first ∧ falseResult = some second ∧
        catalog.Entangled first.type second.type := by
  cases trueResult with
  | none =>
      refine iff_of_true ?_ ?_
      · cases falseResult <;> rfl
      · rintro ⟨_, _, ⟨⟩, _⟩
  | some first =>
      cases falseResult with
      | none =>
          refine iff_of_true rfl ?_
          rintro ⟨_, _, _, ⟨⟩, _⟩
      | some second =>
          have secondInt (value : Int32) (known : second.constant = some (.int value)) :
              second.type = .primitive .int :=
            falseInt second value rfl known
          refine (commonArmsType_comm_iff secondInt).trans (not_congr ?_)
          constructor
          · intro entangled
            exact ⟨first, second, rfl, rfl, entangled⟩
          · rintro ⟨_, _, ⟨⟩, ⟨⟩, entangled⟩
            exact entangled

end Order

end Catalog

/-- A conditional expression. -/
def Tree.conditional (annotations : Annotations) (condition : Option Tree)
    (whenTrue whenFalse : Tree) : Tree :=
  node .conditional annotations
    [⟨.condition, condition.toList⟩, ⟨.trueExpression, [whenTrue]⟩, ⟨.falseExpression, [whenFalse]⟩]

/-- The arms of one stored conditional resolve as those of another one do in the other order. -/
structure Store.SwapsArms (store : Store) (context : Context) (levels : Nat)
    (node swapped : NodeRef) : Prop where
  isConditional : store.payload? node = some .conditional
  alsoConditional : store.payload? swapped = some .conditional
  whenTrue : store.resolveWithin context levels (store.childIn swapped .trueExpression) =
    store.resolveWithin context levels (store.childIn node .falseExpression)
  whenFalse : store.resolveWithin context levels (store.childIn swapped .falseExpression) =
    store.resolveWithin context levels (store.childIn node .trueExpression)

/-- Swapping the arms of a conditional keeps its type unless the types of the arms are entangled.
This holds for conditionals in any store, and for trees under any limit. -/
theorem Context.resolve_swapped_conditional_eq_iff (context : Context) :
    (∀ (store : Store) (levels : Nat) (node swapped : NodeRef),
      store.SwapsArms context levels node swapped →
      (((store.resolveWithin context (levels + 1) node).map (·.type) ==
          (store.resolveWithin context (levels + 1) swapped).map (·.type)) = true ↔
        ¬∃ first second,
          store.resolveWithin context levels (store.childIn node .trueExpression) = some first ∧
          store.resolveWithin context levels (store.childIn node .falseExpression) = some second ∧
          context.catalog.Entangled first.type second.type)) ∧
    (∀ (annotations : Annotations) (condition : Option Tree) (whenTrue whenFalse : Tree)
      (limit : DepthLimit),
      (((Tree.conditional annotations condition whenTrue whenFalse).resolve context limit).map
          (·.type) ==
        ((Tree.conditional annotations condition whenFalse whenTrue).resolve context limit).map
          (·.type)) = true ↔
        ¬∃ lower first second, limit.down? = some lower ∧
          whenTrue.resolve context lower = some first ∧
          whenFalse.resolve context lower = some second ∧
          context.catalog.Entangled first.type second.type) := by
  constructor
  · intro store levels node swapped swaps
    rw [Store.resolveWithin_conditional swaps.isConditional,
      Store.resolveWithin_conditional swaps.alsoConditional, swaps.whenTrue, swaps.whenFalse]
    apply Catalog.conditionalResult?_comm_iff
    intro found value resolved known
    exact (Store.resolveWithin_literal resolved known).2
  · intro annotations condition whenTrue whenFalse limit
    rw [Tree.conditional, Tree.conditional, Tree.resolve_conditional rfl rfl,
      Tree.resolve_conditional rfl rfl]
    cases down : limit.down? with
    | none =>
        refine iff_of_true rfl ?_
        rintro ⟨_, _, _, ⟨⟩, _⟩
    | some lower =>
        have falseInt (found : Resolved) (value : Int32)
            (resolved : whenFalse.resolve context lower = some found)
            (known : found.constant = some (.int value)) : found.type = .primitive .int :=
          (Tree.resolve_literal resolved known).2
        rw [Option.bind_some, Option.bind_some, Catalog.conditionalResult?_comm_iff falseInt]
        apply not_congr
        constructor
        · rintro ⟨first, second, entangled⟩
          exact ⟨lower, first, second, rfl, entangled⟩
        · rintro ⟨_, first, second, ⟨⟩, entangled⟩
          exact ⟨first, second, entangled⟩

/-- Builds the expression `c ? x : x` with two variables of the types. -/
def buildConditional (first second : Ty) : Edit NodeId := do
  let condition ← Edit.mkNode (.identifier "c")
  let whenTrue ← Edit.mkNode (.identifier "x")
  Edit.setType (some whenTrue) first
  let whenFalse ← Edit.mkNode (.identifier "x")
  Edit.setType (some whenFalse) second
  Edit.mkConditional (some condition) (some whenTrue) (some whenFalse)

theorem structural_buildConditional (first second : Ty) :
    (buildConditional first second).Structural :=
  .bind (.mkNode _) fun _ => .bind (.mkNode _) fun _ => .bind (.setType _ _) fun _ =>
    .bind (.mkNode _) fun _ => .bind (.setType _ _) fun _ => .mkConditional _ _ _

/-- The class of comparable objects, raw. -/
def rawComparable : Ty := .raw ⟨4⟩

/-- What is comparable to strings. -/
def stringComparable : Ty := .classType ⟨4⟩ [.raw ⟨6⟩]

/-- A store with two conditionals, which are nodes 3 and 7. Their arms are of the two types, in both
orders. -/
def bothOrders : Store :=
  ((do
    let _ ← buildConditional rawComparable stringComparable
    buildConditional stringComparable rawComparable : Edit NodeId).run .empty).2

theorem wellFormed_bothOrders : bothOrders.WellFormed := by
  refine Edit.Structural.keepsWellFormed ?_ _ Store.wellFormed_empty
  exact .bind (structural_buildConditional _ _) fun _ => structural_buildConditional _ _

theorem trueArm_bothOrders :
    bothOrders.resolveWithin (.ofCatalog .standard) 255
      (bothOrders.childIn (some 3) .trueExpression) = some (.ofType rawComparable) := by
  have child : bothOrders.childIn (some 3) .trueExpression = some 1 := by decide +kernel
  rw [child]
  rfl

theorem falseArm_bothOrders :
    bothOrders.resolveWithin (.ofCatalog .standard) 255
      (bothOrders.childIn (some 3) .falseExpression) = some (.ofType stringComparable) := by
  have child : bothOrders.childIn (some 3) .falseExpression = some 2 := by decide +kernel
  rw [child]
  rfl

theorem swapsArms_bothOrders :
    bothOrders.SwapsArms (.ofCatalog .standard) 255 (some 3) (some 7) where
  isConditional := rfl
  alsoConditional := rfl
  whenTrue := by
    have child : bothOrders.childIn (some 7) .trueExpression = some 5 := by decide +kernel
    rw [child, falseArm_bothOrders]
    rfl
  whenFalse := by
    have child : bothOrders.childIn (some 7) .falseExpression = some 6 := by decide +kernel
    rw [child, trueArm_bothOrders]
    rfl

/-- A raw class and a parameterization of it are subtypes of each other. -/
theorem entangled_comparables : Catalog.standard.Entangled rawComparable stringComparable where
  notTruthValues isTruthValue := by cases isTruthValue
  notNumbers _ _ isNumber := by cases isNumber
  mutualSubtypes :=
    ⟨rawComparable, stringComparable, rfl, rfl, by decide +kernel, by decide +kernel,
      by decide +kernel⟩

/-- Swapping the raw and the parameterized arm changes the type. -/
theorem Context.resolve_swapped_conditional_eq_iff_of_comparables :
    let context := Context.ofCatalog .standard
    bothOrders.SwapsArms context 255 (some 3) (some 7) ∧
      ((bothOrders.resolve context (some 3)).map (·.type) ==
        (bothOrders.resolve context (some 7)).map (·.type)) = false := by
  intro context
  have swaps : bothOrders.SwapsArms context 255 (some 3) (some 7) := swapsArms_bothOrders
  refine ⟨swaps, Bool.eq_false_iff.mpr fun same => ?_⟩
  exact ((context.resolve_swapped_conditional_eq_iff).1 bothOrders 255 _ _ swaps).mp same
    ⟨_, _, trueArm_bothOrders, falseArm_bothOrders, entangled_comparables⟩

/-- The type of a conditional with a raw class and a parameterization of it is that of the second
arm. -/
theorem Context.not_forall_resolve_swapped_conditional_eq :
    (¬∀ (context : Context) (store : Store) (node swapped : NodeRef),
      context.catalog.Registered → store.WellFormed → store.SwapsArms context 255 node swapped →
      (store.resolve context (store.childIn node .trueExpression)).isSome = true →
      (store.resolve context (store.childIn node .falseExpression)).isSome = true →
      ((store.resolve context node).map (·.type) ==
        (store.resolve context swapped).map (·.type)) = true) ∧
    ¬∀ (context : Context) (condition : Option Tree) (whenTrue whenFalse : Tree),
      context.catalog.Registered → (whenTrue.resolve context resolveLimit).isSome = true →
      (whenFalse.resolve context resolveLimit).isSome = true →
      (((Tree.conditional .empty condition whenTrue whenFalse).resolve context resolveLimit).map
          (·.type) ==
        ((Tree.conditional .empty condition whenFalse whenTrue).resolve context resolveLimit).map
          (·.type)) = true := by
  let context := Context.ofCatalog .standard
  constructor
  · intro always
    have trueKnown : (bothOrders.resolve context
        (bothOrders.childIn (some 3) .trueExpression)).isSome = true := by
      decide +kernel
    have falseKnown : (bothOrders.resolve context
        (bothOrders.childIn (some 3) .falseExpression)).isSome = true := by
      decide +kernel
    have same := always context bothOrders (some 3) (some 7) Catalog.Registered.standard
      wellFormed_bothOrders swapsArms_bothOrders trueKnown falseKnown
    revert same
    decide +kernel
  · intro always
    have same := always context none (.variableOf rawComparable) (.variableOf stringComparable)
      Catalog.Registered.standard rfl rfl
    revert same
    decide +kernel

end TypedJava
