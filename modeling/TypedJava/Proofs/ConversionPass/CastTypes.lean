import TypedJava.Proofs.ConversionPass.Idempotence
import TypedJava.Proofs.TypeSyntax.ReadBack

/-! # The types of casts that the pass visits

What the pass puts in the place of a cast is of the type of the cast. Only inside of a cast to whole
numbers, which cuts its operand down anyway, a cast to a narrow type may give way to an `int`. -/

namespace TypedJava

namespace Branch

variable {context : Context} {bound fuel : Nat} {mayCut : Prop} {frame : Frame}
  {cast result typeNode : Branch} {type : Ty}

/-- What a rule for casts makes of a cast is of its type. -/
theorem TreatsCast.keepsCastType
    {again : Option Frame → Branch → Branch → Prop}
    (comes : ∀ surroundings branch result, again surroundings branch result →
      MayConvert context bound mayCut surroundings branch result)
    (written : context.typeSyntax ≠ none) (isCast : cast.payload = .cast)
    (typed : cast.typeIn? context .type = some type) (castType : cast.typeOf? context = some type)
    (treats : TreatsCast context bound again (some frame) cast result) :
    KeepsCastType context type frame cast result := by
  cases treats with
  | unknown _ =>
      exact Or.inl castType
  | legal _ _ _ =>
      exact Or.inl castType
  | detached _ _ _ _ _ =>
      exact Or.inl castType
  | noLiterals _ _ _ _ _ =>
      exact Or.inl castType
  | unwritten _ _ _ _ =>
      exact Or.inl castType
  | toNumber targetType _ _ _ around number literals isConditional finishes =>
      cases around
      rw [typed] at targetType
      cases targetType
      exact (finishes.keepsCastType comes written number.2 literals isConditional).of_gap cast
  | toTruth targetType _ _ _ _ truth isComparison related =>
      rw [typed] at targetType
      cases targetType
      obtain ⟨_, _⟩ := isComparison
      have samePayload := ((comes _ _ _ related).top_of_descend rfl).2
      rw [Ty.eq_of_isBoolean truth.2.2]
      exact Or.inl (typeOf?_of_comparison samePayload (by decide))
  | @detour operand _ changed inner _ _ _ isFirst _ _ _ _ _ _ _ _ =>
      have different : inner.role ≠ .type := by simp [isFirst.role_eq]
      have same : (inner.fill changed).typeOf? context = (inner.fill operand).typeOf? context :=
        typeOf?_congr_of_cast isCast isCast (child?_fill_of_ne different changed operand)
      exact Or.inl (same.trans castType)

/-- What the pass makes of a cast is of its type if the pass leaves its type syntax alone. -/
theorem Converts.keepsCastType
    (converts : Converts context bound mayCut fuel (some frame) cast result)
    (written : context.typeSyntax ≠ none) (isCast : cast.payload = .cast)
    (found : cast.child? .type = some typeNode) (isLeave : typeNode.payload.handling = .leave)
    (typed : typeNode.typeOf? context = some type) (castType : cast.typeOf? context = some type) :
    KeepsCastType context type frame cast result := by
  obtain ⟨_, _, treats, comes, belows⟩ := converts.exists_treatsNode
  obtain ⟨middle, related, treats⟩ := treats.of_cast (by rw [isCast]; rfl)
  -- What is below the cast was treated before the cast itself, but its type syntax is still the same.
  have below := belows _ _ related
  have middleIsCast : middle.payload = .cast := below.payload_eq.trans isCast
  have foundMiddle := below.child?_of_leave found isLeave
  have middleType : middle.typeOf? context = some type :=
    (typeOf?_congr_of_cast isCast middleIsCast (foundMiddle.trans found.symm)).trans castType
  have typedMiddle : middle.typeIn? context .type = some type := by
    rw [typeIn?, foundMiddle, Option.bind_some, typed]
  exact (treats.keepsCastType comes written middleIsCast typedMiddle middleType).of_gap cast

end Branch

namespace Store

variable {store : Store} {context : Context} {cast : NodeId} {type : Ty}

/-- When the pass has visited a cast, at some depth, the node in its place is of a type, or else an
`int` where the parent is a cast to whole numbers with no more room than that type. -/
def KeepsCastType (store : Store) (context : Context) (fuel : Nat) (cast : NodeId) (type : Ty) :
    Prop :=
  ∀ (parent : NodeId) (role : Role) (before after : List NodeId),
    store.childrenIn (some parent) role = before ++ cast :: after →
    ∃ occupant final,
      (Edit.treatWithin context fuel (some cast)).run store = (.ok (), final) ∧
      final.childrenIn (some parent) role = before ++ occupant :: after ∧
      (final.typeOf? context (some occupant) = some type ∨
        final.typeOf? context (some occupant) = some (.primitive .int) ∧
          NarrowsInCast type role (store.payload? (some parent))
            (store.typeOf? context (store.childIn (some parent) .type)))

/-- The pass keeps the type of a cast whose type syntax it leaves alone. -/
theorem WellFormed.keepsCastType_of_leave
    (wellFormed : store.WellFormed) (written : context.typeSyntax ≠ none)
    (isCast : store.payload? (some cast) = some .cast)
    (leavesType : (store.payload? (store.childIn (some cast) .type)).map Payload.handling =
      some .leave)
    (typed : store.typeOf? context (store.childIn (some cast) .type) = some type)
    (castType : store.typeOf? context (some cast) = some type) (fuel : Nat) :
    store.KeepsCastType context fuel cast type := by
  intro parent role before after listed
  have isChild : cast ∈ store.childrenIn (some parent) role := by simp [listed]
  obtain ⟨frame, frames, branch, hosted, rfl, samePlace⟩ :=
    Branch.exists_hosted_of_mem_childrenIn wellFormed isChild
  cases samePlace
  have held := hosted.held
  rw [held.payload?_eq, Option.some.injEq] at isCast
  rw [held.payload?_childIn wellFormed, Option.map_map] at leavesType
  rw [held.typeOf?_childIn wellFormed] at typed
  rw [held.typeOf?_eq wellFormed] at castType
  obtain ⟨typeNode, found, isLeave⟩ := Option.map_eq_some_iff.mp leavesType
  rw [Branch.typeIn?, found, Option.bind_some] at typed
  obtain ⟨_, final, run, other, becomes, converts⟩ :=
    (Branch.simulates_treatWithin fuel store _ branch wellFormed (Nat.le_refl _) hosted).exists_run
  refine ⟨other.id, final, run, becomes.childrenIn_gap hosted wellFormed listed, ?_⟩
  have outer := hosted.outer.held
  have outerPayload : store.payload? (some frame.parent) = some frame.payload := outer.payload?_eq
  have outerType : store.typeOf? context (store.childIn (some frame.parent) .type) =
      (frame.fill branch).typeIn? context .type :=
    outer.typeOf?_childIn wellFormed .type
  rw [becomes.hosted.held.typeOf?_eq becomes.wellFormed, outerPayload, outerType]
  exact converts.keepsCastType written isCast found isLeave typed castType

/-! ### A cast inside of a cast -/

/-- Builds the statement `(byte) (byte) flag;` for a truth value. -/
def buildFlagCasts : Edit NodeId := do
  let flag ← Edit.mkNode (.identifier "flag")
  Edit.setType (some flag) (.primitive .boolean)
  let innerType ← Edit.mkNamedType "byte" []
  let inner ← Edit.mkCast (some innerType) (some flag)
  let outerType ← Edit.mkNamedType "byte" []
  let outer ← Edit.mkCast (some outerType) (some inner)
  Edit.mkStatement (some outer)

theorem wellFormed_flagCasts : (buildFlagCasts.run .empty).2.WellFormed := by
  refine Edit.Structural.keepsWellFormed ?_ _ wellFormed_empty
  exact .bind (.mkNode _) fun _ => .bind (.setType _ _) fun _ => .bind (.mkNamedType _ _) fun _ =>
    .bind (.mkCast _ _) fun _ => .bind (.mkNamedType _ _) fun _ => .bind (.mkCast _ _) fun _ =>
    .mkStatement _

/-- The inner cast gives way to `flag ? 1 : 0`, which is an `int`. -/
theorem keepsCastType_of_flagCasts :
    let store := (buildFlagCasts.run .empty).2
    let visited := ((Edit.treatWithin Edit.holderContext 4 (some 2)).run store).2
    store.KeepsCastType Edit.holderContext 4 2 (.primitive .byte) ∧
      (visited.typeOf? Edit.holderContext (visited.childIn (some 6) .expression)).bind
        Ty.primitiveKind? = some .int :=
  ⟨wellFormed_flagCasts.keepsCastType_of_leave (by decide) rfl rfl rfl rfl 4, by decide +kernel⟩

/-! ### Casts that lose their type -/

/-- Builds the statement `(h.value) null;`, where `h` is some object and the field, in the place of
type syntax, is one of a generic class. -/
def buildAccessCast : Edit NodeId := do
  let receiver ← Edit.mkNode (.identifier "h")
  Edit.setType (some receiver) (.raw ⟨1⟩)
  let access ← Edit.mkAccess (some receiver) "value" []
  Edit.setMember (some access)
    ⟨"value", .raw ⟨15⟩, .field (.typeVariable ⟨"T", some ⟨15⟩⟩ none)⟩
  let operand ← Edit.mkNull
  let cast ← Edit.mkCast (some access) (some operand)
  Edit.mkStatement (some cast)

theorem wellFormed_accessCast : (buildAccessCast.run .empty).2.WellFormed := by
  refine Edit.Structural.keepsWellFormed ?_ _ wellFormed_empty
  exact .bind (.mkNode _) fun _ => .bind (.setType _ _) fun _ => .bind (.mkAccess _ _ _) fun _ =>
    .bind (.setMember _ _) fun _ => .bind .mkNull fun _ => .bind (.mkCast _ _) fun _ =>
    .mkStatement _

/-- The receiver of the access is cast, and with it the type changes that the access stands for. -/
theorem not_keepsCastType_accessCast :
    ¬ (buildAccessCast.run .empty).2.KeepsCastType Edit.holderContext 2 4
      (.typeVariable ⟨"T", some ⟨15⟩⟩ none) := by
  intro keeps
  obtain ⟨occupant, final, run, listed, typed⟩ := keeps 7 .expression [] [] (by decide +kernel)
  obtain rfl := congrArg Prod.snd run
  have sameNode : occupant = 4 := by
    have inPlace : (((Edit.treatWithin Edit.holderContext 2 (some 4)).run
        (buildAccessCast.run .empty).2).2).childrenIn (some 7) .expression = [4] := by
      decide +kernel
    rw [inPlace] at listed
    exact (List.cons.inj listed).1.symm
  have changed : (((Edit.treatWithin Edit.holderContext 2 (some 4)).run
      (buildAccessCast.run .empty).2).2).typeOf? Edit.holderContext (some 4) =
        some .unboundedWildcard := rfl
  rw [sameNode, changed] at typed
  rcases typed with same | ⟨same, _⟩ <;> cases same

/-- The type syntax of an array of `int`s, with a node of its own for each dimension. -/
def intArray : (dimensions : Nat) → Tree
  | 0 => .node (.simpleType "int") .empty [⟨.typeArgument, []⟩]
  | dimensions + 1 => .node (.composedType 1) .empty [⟨.type, [intArray dimensions]⟩]

theorem exists_resolve_intArray (context : Context) (levels dimensions : Nat) :
    ∃ resolved, (intArray dimensions).resolve context (some (levels + dimensions)) =
      some resolved := by
  have named : context.catalog.namedType? "int" = some (.primitive .int) :=
    Catalog.namedType?_keyword rfl
  induction dimensions with
  | zero =>
      exact ⟨_, Tree.resolve_name named _⟩
  | succ dimensions inductionHypothesis =>
      obtain ⟨resolved, known⟩ := inductionHypothesis
      rw [intArray, ← Nat.add_assoc, Tree.resolve_composedType, known]
      exact ⟨_, rfl⟩

/-- An array has no type when there are more dimensions than levels. -/
theorem resolve_intArray_of_lt
    (context : Context) {levels dimensions : Nat} (deep : levels < dimensions) :
    (intArray dimensions).resolve context (some levels) = none := by
  induction dimensions generalizing levels with
  | zero =>
      exact absurd deep (Nat.not_lt_zero _)
  | succ dimensions inductionHypothesis =>
      cases levels with
      | zero =>
          rfl
      | succ levels =>
          rw [intArray, Tree.resolve_composedType,
            inductionHypothesis (Nat.lt_of_succ_lt_succ deep)]
          rfl

/-- Every number of dimensions stands in some store. -/
theorem exists_intArray (dimensions : Nat) :
    ∃ (store : Store) (branch : Branch), store.WellFormed ∧ Branch.Hosted store [] branch ∧
      branch.toTree = intArray dimensions ∧ branch.payload.handling = .leave := by
  induction dimensions with
  | zero =>
      have becomes := Branch.becomes_push wellFormed_empty (.simpleType "int")
      exact ⟨_, _, becomes.wellFormed, becomes.hosted, rfl, rfl⟩
  | succ dimensions inductionHypothesis =>
      obtain ⟨store, branch, wellFormed, hosted, same, _⟩ := inductionHypothesis
      obtain ⟨changed, _, becomes⟩ := Branch.run_mkNodeWith wellFormed (.composedType 1)
        [(.type, branch)] (by simpa using hosted) (by simp)
        (by simp [Payload.kind, NodeKind.roles])
        (by intro role _; exact List.length_filter_le _ _)
      refine ⟨changed, _, becomes.wellFormed, becomes.hosted, ?_, rfl⟩
      rw [intArray, ← same]
      rfl

/-- At the depth limit a cast of an operand without a type stays. -/
theorem run_treatWithin_of_untyped
    {store : Store} {context : Context} {cast : NodeId}
    (isCast : store.payload? (some cast) = some .cast)
    (untyped : store.typeOf? context (store.childIn (some cast) .expression) = none) :
    (Edit.treatWithin context 0 (some cast)).run store = (.ok (), store) := by
  rw [Edit.treatWithin, Edit.treatNode, Edit.run_bind_ok (Edit.run_get store)]
  simp only [isCast]
  rw [Edit.run_bind_ok (Edit.run_pure _ _), Edit.treatCast,
    Edit.run_bind_ok (Edit.run_get store)]
  simp only [untyped]
  cases store.typeOf? context (store.childIn (some cast) .type) <;> exact Edit.run_pure _ _

/-- The statement `(int[]...[]) x;` with so many dimensions that the type has just the last level of
those that are resolved. -/
theorem exists_deepCast :
    ∃ (store : Store) (statement cast : NodeId) (type : Ty), store.WellFormed ∧
      store.childrenIn (some statement) .expression = [cast] ∧
      store.payload? (some cast) = some .cast ∧
      (store.payload? (store.childIn (some cast) .type)).map Payload.handling = some .leave ∧
      store.typeOf? Edit.holderContext (store.childIn (some cast) .type) = some type ∧
      store.typeOf? Edit.holderContext (store.childIn (some cast) .expression) = none ∧
      store.typeOf? Edit.holderContext (some cast) = none := by
  obtain ⟨store, typeNode, wellFormed, typeHosted, same, isLeave⟩ := exists_intArray 256
  have becomesOperand := Branch.becomes_push wellFormed (.identifier "x")
  have typeStays := becomesOperand.hosted_other typeHosted
  have different : typeNode.id ≠ store.size := Nat.ne_of_lt typeHosted.held.id_lt_size
  obtain ⟨cast, afterCast, _, becomesCast, isCast⟩ :=
    Branch.run_mkCast becomesOperand.wellFormed typeStays becomesOperand.hosted different
  obtain ⟨changed, _, becomes⟩ := Branch.run_mkNodeWith becomesCast.wellFormed .expressionStatement
    [(.expression, cast)] (by simpa using becomesCast.hosted) (by simp)
    (by simp [Payload.kind, NodeKind.roles])
    (by intro role _; exact List.length_filter_le _ _)
  have payload : cast.payload = .cast := by
    obtain ⟨_, _, _⟩ := isCast
    rfl
  have foundType : cast.child? .type = some typeNode := by
    obtain ⟨_, _, _⟩ := isCast
    rfl
  have foundOperand :
      cast.child? .expression = some (Branch.assemble store.size (.identifier "x") []) := by
    obtain ⟨_, _, _⟩ := isCast
    rfl
  have listed := becomes.hosted.held.childrenIn_eq becomes.wellFormed .expression
  have inStatement : (Branch.assemble afterCast.size .expressionStatement
      [(.expression, cast)]).child? .expression = some cast := rfl
  have castHeld := becomes.hosted.held.of_child? inStatement
  have typeHeld := castHeld.of_child? foundType
  -- The innermost type is 256 levels below the top of the type syntax, and one more below the cast.
  have below : (intArray 256).resolve Edit.holderContext (some 255) = none :=
    resolve_intArray_of_lt Edit.holderContext (by decide)
  obtain ⟨resolved, known⟩ := exists_resolve_intArray Edit.holderContext 0 256
  refine ⟨changed, _, cast.id, resolved.type, becomes.wellFormed, listed, ?_, ?_, ?_, ?_, ?_⟩
  · rw [castHeld.payload?_eq, payload]
  · rw [castHeld.childIn_eq becomes.wellFormed, foundType, Option.map_some, typeHeld.payload?_eq,
      Option.map_some, isLeave]
  · rw [castHeld.typeOf?_childIn becomes.wellFormed, Branch.typeIn?, foundType, Option.bind_some,
      Branch.typeOf?, Branch.resolved?, same, resolveLimit, resolveLevels, known, Option.map_some]
  · rw [castHeld.typeOf?_childIn becomes.wellFormed, Branch.typeIn?, foundOperand]
    rfl
  · rw [castHeld.typeOf?_eq becomes.wellFormed, Branch.typeOf?_of_cast payload, foundType]
    change (typeNode.toTree.resolve Edit.holderContext (some 255)).map (·.type) = none
    rw [same, below]
    rfl

/-- The type of a cast may get lost when the pass does not leave its type syntax alone, and when the
cast is of no type itself. -/
theorem not_forall_keepsCastType :
    (¬ ∀ (store : Store) (context : Context) (fuel : Nat) (cast : NodeId) (type : Ty),
      store.WellFormed → context.typeSyntax ≠ none → store.payload? (some cast) = some .cast →
      store.typeOf? context (store.childIn (some cast) .type) = some type →
      store.typeOf? context (some cast) = some type →
      store.KeepsCastType context fuel cast type) ∧
    ¬ ∀ (store : Store) (context : Context) (fuel : Nat) (cast : NodeId) (type : Ty),
      store.WellFormed → context.typeSyntax ≠ none → store.payload? (some cast) = some .cast →
      (store.payload? (store.childIn (some cast) .type)).map Payload.handling = some .leave →
      store.typeOf? context (store.childIn (some cast) .type) = some type →
      store.KeepsCastType context fuel cast type := by
  constructor
  · intro keeps
    exact not_keepsCastType_accessCast
      (keeps _ _ 2 4 _ wellFormed_accessCast (by decide) rfl rfl rfl)
  · intro keeps
    obtain ⟨store, statement, cast, type, wellFormed, listed, isCast, isLeave, typed, untyped,
      noType⟩ := exists_deepCast
    obtain ⟨occupant, final, run, listedFinal, castType⟩ :=
      keeps store _ 0 cast type wellFormed (by decide) isCast isLeave typed statement .expression
        [] [] listed
    rw [run_treatWithin_of_untyped isCast untyped] at run
    cases run
    rw [listed] at listedFinal
    obtain rfl := (List.cons.inj listedFinal).1
    simp [noType] at castType

end Store

end TypedJava
