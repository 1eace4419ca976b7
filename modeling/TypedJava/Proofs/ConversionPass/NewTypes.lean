import TypedJava.Proofs.ConversionPass.Visited

/-! # The types of new nodes

A new cast has the type that is written in it, a new conditional the kind of its literals and a new
comparison is a truth value. Treating them again does not change that. -/

namespace TypedJava

namespace Branch

section Views

variable {context : Context} {frame : Frame} {role : Role}

/-- What is in a gap does not matter for another role. -/
theorem child?_fill_of_ne (different : frame.role ≠ role) (child other : Branch) :
    (frame.fill child).child? role = (frame.fill other).child? role := by
  simp [Branch.child?, Frame.fill, children, List.find?_append, different]

theorem typeIn?_fill_of_ne (different : frame.role ≠ role) (child other : Branch) :
    (frame.fill child).typeIn? context role = (frame.fill other).typeIn? context role := by
  rw [typeIn?, typeIn?, child?_fill_of_ne different child other]

/-- The type of the first child in a role is that of the branch there. -/
theorem resolveRole_toTree
    {payload : Payload} (isRole : role ∈ payload.kind.roles) (id : NodeId)
    (annotations : Annotations) (children : List (Role × Branch)) (limit : DepthLimit) :
    Tree.resolveRole context role
      (payload.kind.roles.map fun role => ⟨role, treesIn role children⟩) limit =
        limit.down?.bind fun limit =>
          ((node id payload annotations children).child? role).bind fun child =>
            child.toTree.resolve context limit := by
  have first (limit : DepthLimit) :
      Tree.resolveFirst context (treesIn role children) limit =
        ((node id payload annotations children).child? role).bind fun child =>
          child.toTree.resolve context limit := by
    rw [treesIn_eq_filter, Branch.child?, Branch.children, ← List.head?_filter]
    cases children.filter fun entry => entry.1 = role <;> rfl
  generalize payload.kind.roles = roles at isRole
  induction roles with
  | nil =>
      exact absurd isRole List.not_mem_nil
  | cons other roles inductionHypothesis =>
      rw [List.map_cons, Tree.resolveRole]
      by_cases same : other = role
      · rw [if_pos same]
        subst same
        exact congrArg _ (funext first)
      · rw [if_neg same]
        exact inductionHypothesis ((List.mem_cons.mp isRole).resolve_left (Ne.symm same))

/-- Written type syntax reads back as the type that it was written for. -/
theorem IsWritten.resolve_eq
    {bound : Nat} {type : Ty} {written : Branch} (isWritten : IsWritten bound type written)
    (limit : DepthLimit) :
    written.toTree.resolve context limit = some (.ofType type) := by
  cases isWritten with
  | @mk id payload _ children types _ isSyntax _ =>
      cases payload with
      | simpleType name =>
          rfl
      | wildcardType form =>
          rfl
      | composedType rank =>
          rfl
      | _ =>
          cases isSyntax

/-- A comparison is a truth value. -/
theorem typeOf?_of_comparison
    {branch : Branch} {operator : BinaryOperator} (isBinary : branch.payload = .binary operator)
    (isComparison : operator.isComparison = true) :
    branch.typeOf? context = some (.primitive .boolean) := by
  obtain ⟨id, payload, annotations, children⟩ := branch
  subst isBinary
  have notAny : operator ≠ .any := by
    rintro rfl
    cases isComparison
  simp [typeOf?, resolved?, toTree, Tree.resolve_eq, Payload.resolveWith, notAny, isComparison,
    Resolved.ofType]

end Views

/-! ## Casts to a written type -/

/-- A cast to a type that a rule wrote. -/
structure IsCastTo (bound : Nat) (type : Ty) (branch : Branch) : Prop where
  payload_eq : branch.payload = .cast
  written : ∃ written, branch.child? .type = some written ∧ IsWritten bound type written

/-- A conditional between two new literals. -/
structure ChoosesBetween (bound : Nat) (one zero : Literal) (branch : Branch) : Prop where
  payload_eq : branch.payload = .conditional
  whenTrue : ∃ first, branch.child? .trueExpression = some first ∧ IsLiteral bound one first
  whenFalse : ∃ second, branch.child? .falseExpression = some second ∧ IsLiteral bound zero second

section Types

variable {context : Context} {bound : Nat} {type : Ty} {one zero : Literal} {branch : Branch}

theorem IsCastTo.typeIn?_eq (isCast : branch.IsCastTo bound type) :
    branch.typeIn? context .type = some type := by
  obtain ⟨written, found, isWritten⟩ := isCast.written
  rw [typeIn?, found, Option.bind_some, typeOf?, resolved?, isWritten.resolve_eq]
  rfl

/-- A cast is of the type that its type syntax has one level down. -/
theorem typeOf?_of_cast (isCast : branch.payload = .cast) :
    branch.typeOf? context = resolveLimit.down?.bind fun limit =>
      (branch.child? .type).bind fun syntaxNode =>
        (syntaxNode.toTree.resolve context limit).map (·.type) := by
  obtain ⟨id, payload, annotations, children⟩ := branch
  subst isCast
  have isRole : .type ∈ Payload.cast.kind.roles := by decide
  rw [typeOf?, resolved?, toTree, Tree.resolve_eq, Payload.resolveWith, Tree.belowSlots]
  simp only [resolveRole_toTree isRole id annotations children]
  simp [Option.map_bind, Function.comp_def, Resolved.ofType]

/-- Casts to the same type syntax are of the same type. -/
theorem typeOf?_congr_of_cast
    {other : Branch} (isCast : branch.payload = .cast) (otherIsCast : other.payload = .cast)
    (same : other.child? .type = branch.child? .type) :
    other.typeOf? context = branch.typeOf? context := by
  rw [typeOf?_of_cast isCast, typeOf?_of_cast otherIsCast, same]

theorem IsCastTo.typeOf?_eq (isCast : branch.IsCastTo bound type) :
    branch.typeOf? context = some type := by
  obtain ⟨written, found, isWritten⟩ := isCast.written
  rw [typeOf?_of_cast isCast.payload_eq, found]
  simp only [Option.bind_some, isWritten.resolve_eq]
  rfl

theorem WrapsInCast.isCastTo
    {options : TypeSyntaxOptions} {operand cast : Branch}
    (wraps : WrapsInCast context bound options type operand cast) :
    cast.IsCastTo bound (type.writable context.catalog options true) := by
  obtain ⟨isWritten, _, _, _⟩ := wraps
  exact ⟨rfl, _, rfl, isWritten⟩

theorem WrapsInCast.child?_eq
    {options : TypeSyntaxOptions} {operand cast : Branch}
    (wraps : WrapsInCast context bound options type operand cast) :
    cast.child? .expression = some operand := by
  obtain ⟨_, _, _, _⟩ := wraps
  rfl

theorem IsConditionalOf.choosesBetween
    {condition conditional : Branch}
    (isConditional : IsConditionalOf bound one zero condition conditional) :
    conditional.ChoosesBetween bound one zero := by
  obtain ⟨_, isFirst, isSecond⟩ := isConditional
  exact ⟨rfl, ⟨_, rfl, isFirst⟩, ⟨_, rfl, isSecond⟩⟩

/-- A conditional between literals of one kind is of that kind. -/
theorem ChoosesBetween.resolved?_eq
    (chooses : branch.ChoosesBetween bound one zero) {kind : JvmKind}
    (oneKind : one.kind? = some kind) (zeroKind : zero.kind? = some kind) :
    branch.resolved? context = some (.ofType (.primitive kind)) := by
  obtain ⟨first, foundFirst, ⟨_⟩⟩ := chooses.whenTrue
  obtain ⟨second, foundSecond, ⟨_⟩⟩ := chooses.whenFalse
  obtain ⟨id, payload, annotations, children⟩ := branch
  obtain ⟨rfl⟩ := chooses.payload_eq
  have isTrueRole : .trueExpression ∈ Payload.conditional.kind.roles := by decide
  have isFalseRole : .falseExpression ∈ Payload.conditional.kind.roles := by decide
  have common : context.catalog.commonArmsType ⟨.primitive kind, some one⟩
      ⟨.primitive kind, some zero⟩ = .primitive kind :=
    if_pos (beq_self_eq_true kind)
  rw [resolved?, toTree, Tree.resolve_eq, Payload.resolveWith, Tree.belowSlots]
  simp only [resolveRole_toTree isTrueRole id annotations children,
    resolveRole_toTree isFalseRole id annotations children, foundFirst, foundSecond]
  simp [toTree, Tree.resolve_eq, Payload.resolveWith, resolveLimit, resolveLevels,
    DepthLimit.down?, oneKind, zeroKind, common]

theorem ChoosesBetween.typeOf?_eq
    (chooses : branch.ChoosesBetween bound one zero) {kind : JvmKind}
    (oneKind : one.kind? = some kind) (zeroKind : zero.kind? = some kind) :
    branch.typeOf? context = some (.primitive kind) := by
  rw [typeOf?, chooses.resolved?_eq oneKind zeroKind]
  rfl

/-- The literals for truth values among the values of a kind are of that kind, or else of the kind
`int`. -/
theorem kind_of_truthLiterals?
    {kind : JvmKind} (literals : truthLiterals? (.primitive kind) = some (one, zero)) :
    one.kind? = some (if kind.width < 32 then .int else kind) ∧
      zero.kind? = some (if kind.width < 32 then .int else kind) := by
  obtain ⟨_, same, literals⟩ := Option.bind_eq_some_iff.mp literals
  cases same
  cases kind <;> simp only [Literal.ofBoolean?, Option.some.injEq, Prod.mk.injEq, reduceCtorEq]
    at literals <;> obtain ⟨rfl, rfl⟩ := literals <;> exact ⟨rfl, rfl⟩

end Types

/-! ## Treating new nodes again -/

section Again

variable {context : Context} {bound fuel : Nat} {mayCut : Prop} {surroundings : Option Frame}
  {branch result : Branch}

/-- The pass goes on with a branch within some number of levels, or cuts it off. -/
def MayConvert (context : Context) (bound : Nat) (mayCut : Prop) (surroundings : Option Frame)
    (branch result : Branch) : Prop :=
  (mayCut ∧ result = branch) ∨
    ∃ fuel, Converts context bound mayCut fuel surroundings branch result

theorem Converts.mayConvert
    (converts : Converts context bound mayCut fuel surroundings branch result) :
    MayConvert context bound mayCut surroundings branch result :=
  Or.inr ⟨fuel, converts⟩

theorem Converts.eq_of_leave
    (isLeave : branch.payload.handling = .leave)
    (converts : Converts context bound mayCut fuel surroundings branch result) :
    result = branch := by
  cases fuel <;> cases converts <;> simp_all

theorem MayConvert.eq_of_leave
    (isLeave : branch.payload.handling = .leave)
    (mayConvert : MayConvert context bound mayCut surroundings branch result) :
    result = branch := by
  rcases mayConvert with ⟨_, same⟩ | ⟨_, converts⟩
  · exact same
  · exact converts.eq_of_leave isLeave

/-- In two lists that go together entry by entry the first entries in a role go together. -/
theorem find?_of_pairwise
    (related : Role → Branch → Branch → Prop) {role : Role}
    {children visited : List (Role × Branch)}
    (pairwise : List.Forall₂ (fun entry other => other.1 = entry.1 ∧
      related entry.1 entry.2 other.2) children visited) {entry : Role × Branch}
    (found : children.find? (fun entry => entry.1 = role) = some entry) :
    ∃ other, visited.find? (fun entry => entry.1 = role) = some other ∧
      related role entry.2 other.2 := by
  induction pairwise with
  | nil =>
      cases found
  | @cons first other _ _ same _ inductionHypothesis =>
      by_cases here : first.1 = role
      · rw [List.find?_cons_of_pos (by simpa using here)] at found
        cases found
        exact ⟨other, List.find?_cons_of_pos (by simpa [same.1] using here), here ▸ same.2⟩
      · rw [List.find?_cons_of_neg (by simpa using here)] at found
        rw [List.find?_cons_of_neg (by simpa [same.1] using here)]
        exact inductionHypothesis found

/-- Visiting the children treats the first child in a role and leaves it the first there. -/
theorem Descends.exists_child?
    {visit : Option Frame → Branch → Branch → Prop} {middle child : Branch} {role : Role}
    (descends : Descends visit branch middle) (found : branch.child? role = some child) :
    ∃ frame changed, middle.child? role = some changed ∧ visit (some frame) child changed := by
  obtain ⟨visits⟩ := descends
  obtain ⟨visited, rfl, pairwise⟩ := visits.exists_pairwise
    fun _ _ _ child changed related =>
      (⟨_, related⟩ : ∃ frame, visit (some frame) child changed)
  obtain ⟨entry, foundEntry, rfl⟩ := Option.map_eq_some_iff.mp found
  obtain ⟨other, foundOther, frame, related⟩ := find?_of_pairwise
    (fun _ child changed => ∃ frame, visit (some frame) child changed) pairwise foundEntry
  exact ⟨frame, other.2, congrArg (Option.map Prod.snd) foundOther, related⟩

theorem TreatsAccess.payload_eq
    {again : Option Frame → Branch → Branch → Prop} {node result : Branch}
    (treats : TreatsAccess context bound again surroundings node result) :
    result.payload = node.payload := by
  cases treats <;> rfl

theorem TreatsAssignment.payload_eq
    {again : Option Frame → Branch → Branch → Prop} {node result : Branch}
    (treats : TreatsAssignment context bound again node result) :
    result.payload = node.payload := by
  cases treats <;> rfl

theorem Descends.payload_eq
    {visit : Option Frame → Branch → Branch → Prop} {middle : Branch}
    (descends : Descends visit branch middle) :
    middle.payload = branch.payload := by
  obtain ⟨_⟩ := descends
  rfl

/-- Below the top of a branch the first child in every role stays the first there. -/
structure ConvertsBelow (context : Context) (bound : Nat) (mayCut : Prop)
    (branch middle : Branch) : Prop where
  id_eq : middle.id = branch.id
  payload_eq : middle.payload = branch.payload
  child : ∀ {role : Role} {child : Branch}, branch.child? role = some child →
    ∃ surroundings changed, middle.child? role = some changed ∧
      MayConvert context bound mayCut surroundings child changed

theorem ConvertsBelow.child?_of_leave
    {middle child : Branch} {role : Role}
    (below : ConvertsBelow context bound mayCut branch middle)
    (found : branch.child? role = some child) (isLeave : child.payload.handling = .leave) :
    middle.child? role = some child := by
  obtain ⟨_, changed, foundChanged, related⟩ := below.child found
  rw [foundChanged, related.eq_of_leave isLeave]

/-- The pass treats a node when it has converted what is below it, and goes on with new nodes. -/
theorem Converts.exists_treatsNode
    (converts : Converts context bound mayCut fuel surroundings branch result) :
    ∃ again below, TreatsNode context bound again below surroundings branch result ∧
      (∀ surroundings branch result, again surroundings branch result →
        MayConvert context bound mayCut surroundings branch result) ∧
      ∀ branch middle, below branch middle → ConvertsBelow context bound mayCut branch middle := by
  cases fuel with
  | zero =>
      refine ⟨_, _, converts, fun _ _ _ cut => Or.inl cut, ?_⟩
      rintro branch middle ⟨cut, rfl⟩
      exact ⟨rfl, rfl, fun found => ⟨none, _, found, Or.inl ⟨cut, rfl⟩⟩⟩
  | succ less =>
      refine ⟨_, _, converts, fun _ _ _ related => related.mayConvert, ?_⟩
      refine fun branch middle descends => ⟨?_, descends.payload_eq, fun found => ?_⟩
      · obtain ⟨_⟩ := descends
        rfl
      · obtain ⟨frame, changed, foundChanged, related⟩ := descends.exists_child? found
        exact ⟨some frame, changed, foundChanged, related.mayConvert⟩

/-- A conditional between new literals stays one. -/
theorem MayConvert.choosesBetween
    {one zero : Literal} (chooses : branch.ChoosesBetween bound one zero)
    (mayConvert : MayConvert context bound mayCut surroundings branch result) :
    result.ChoosesBetween bound one zero := by
  rcases mayConvert with ⟨_, rfl⟩ | ⟨_, converts⟩
  · exact chooses
  · have isDescend : branch.payload.handling = .descend := by
      rw [chooses.payload_eq]
      rfl
    obtain ⟨_, _, treats, _, belows⟩ := converts.exists_treatsNode
    have below := belows _ _ (treats.of_descend isDescend)
    obtain ⟨first, foundFirst, isFirst⟩ := chooses.whenTrue
    obtain ⟨second, foundSecond, isSecond⟩ := chooses.whenFalse
    refine ⟨below.payload_eq.trans chooses.payload_eq,
      ⟨first, below.child?_of_leave foundFirst ?_, isFirst⟩,
      ⟨second, below.child?_of_leave foundSecond ?_, isSecond⟩⟩
    · obtain ⟨_⟩ := isFirst
      rfl
    · obtain ⟨_⟩ := isSecond
      rfl

/-- A node that no rule is about stays what it is. -/
theorem MayConvert.top_of_descend
    (isDescend : branch.payload.handling = .descend)
    (mayConvert : MayConvert context bound mayCut surroundings branch result) :
    result.id = branch.id ∧ result.payload = branch.payload := by
  rcases mayConvert with ⟨_, rfl⟩ | ⟨_, converts⟩
  · exact ⟨rfl, rfl⟩
  · obtain ⟨_, _, treats, _, belows⟩ := converts.exists_treatsNode
    have below := belows _ _ (treats.of_descend isDescend)
    exact ⟨below.id_eq, below.payload_eq⟩

/-- A cast to a written type stays one, unless its operand turns out to mix truth values and numbers
with the type. -/
theorem MayConvert.isCastTo
    {type : Ty} {operand : Branch} (isCastTo : branch.IsCastTo bound type)
    (found : branch.child? .expression = some operand)
    (unmixed : ∀ {surroundings : Option Frame} {changed : Branch} {source : Ty},
      MayConvert context bound mayCut surroundings operand changed →
      changed.typeOf? context = some source →
      ¬ becomesNumber context.catalog type source ∧
        ∀ kind, ¬ becomesTruth context.catalog type source kind)
    (mayConvert : MayConvert context bound mayCut surroundings branch result) :
    result.IsCastTo bound type := by
  rcases mayConvert with ⟨_, rfl⟩ | ⟨_, converts⟩
  · exact isCastTo
  have isCast : branch.payload.handling = .cast := by
    rw [isCastTo.payload_eq]
    rfl
  obtain ⟨_, _, treats, _, belows⟩ := converts.exists_treatsNode
  obtain ⟨middle, related, treats⟩ := treats.of_cast isCast
  have below := belows _ _ related
  obtain ⟨written, foundWritten, isWritten⟩ := isCastTo.written
  have middleCast : middle.IsCastTo bound type :=
    ⟨below.payload_eq.trans isCastTo.payload_eq,
      written, below.child?_of_leave foundWritten isWritten.handling_eq, isWritten⟩
  obtain ⟨_, changed, foundChanged, related⟩ := below.child found
  have middleUnmixed {target source : Ty} {inner : Branch}
      (targetType : middle.typeIn? context .type = some target)
      (foundInner : middle.child? .expression = some inner)
      (sourceType : inner.typeOf? context = some source) :
      ¬ becomesNumber context.catalog target source ∧
        ∀ kind, ¬ becomesTruth context.catalog target source kind := by
    rw [middleCast.typeIn?_eq] at targetType
    rw [foundChanged] at foundInner
    cases targetType
    cases foundInner
    exact unmixed related sourceType
  cases treats with
  | unknown _ =>
      exact middleCast
  | legal _ _ _ =>
      exact middleCast
  | detached _ _ _ _ _ =>
      exact middleCast
  | noLiterals _ _ _ _ _ =>
      exact middleCast
  | unwritten _ _ _ _ =>
      exact middleCast
  | toNumber targetType foundInner sourceType _ _ number _ _ _ =>
      exact absurd number (middleUnmixed targetType foundInner sourceType).1
  | toTruth targetType foundInner sourceType _ _ truth _ _ =>
      exact absurd truth ((middleUnmixed targetType foundInner sourceType).2 _)
  | @detour operand _ result frame _ _ _ isFirst _ _ _ _ _ _ _ _ =>
      obtain ⟨written, foundWritten, isWritten⟩ := middleCast.written
      have different : frame.role ≠ .type := by simp [isFirst.role_eq]
      exact ⟨middleCast.payload_eq, written,
        (child?_fill_of_ne different result operand).trans foundWritten, isWritten⟩

/-- A cast to a reference type keeps the type that is written in it. -/
theorem WrapsInCast.typeOf?_of_isReference
    {type : Ty} {options : TypeSyntaxOptions} {operand cast : Branch}
    (isReference : (type.writable context.catalog options true).isReference = true)
    (wraps : WrapsInCast context bound options type operand cast)
    (converts : Converts context bound mayCut fuel surroundings cast result) :
    result.typeOf? context = some (type.writable context.catalog options true) := by
  have noKind := Option.isNone_iff_eq_none.mp isReference
  have resultIsCastTo : result.IsCastTo bound (type.writable context.catalog options true) := by
    apply converts.mayConvert.isCastTo wraps.isCastTo wraps.child?_eq
    intro _ _ source _ _
    simp [becomesNumber, becomesTruth, Ty.isNumeric, Ty.isBoolean, noKind]
  exact resultIsCastTo.typeOf?_eq

end Again

end Branch

end TypedJava
