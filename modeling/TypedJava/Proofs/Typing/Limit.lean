import Mathlib.Logic.Relation
import TypedJava.Proofs.Branch.Build
import TypedJava.Proofs.Edit.Structural
import TypedJava.Proofs.Typing.InStore

/-! # Resolution under a limit

A limit on the levels that a resolution goes down mostly makes it lose answers. It changes an answer
in two places: where the receiver of a member is lost that would have given the member another type,
and where a name stands without the type arguments that are written behind it. -/

namespace TypedJava

/-- The answer is the full one, or it is missing. -/
def OnlyLoses {α : Type} (answer full : Option α) : Prop :=
  answer = none ∨ answer = full

theorem OnlyLoses.bind
    {α β : Type} {answer full : Option α} (loses : OnlyLoses answer full) (next : α → Option β) :
    OnlyLoses (answer.bind next) (full.bind next) := by
  rcases loses with rfl | rfl
  · exact Or.inl rfl
  · exact Or.inr rfl

theorem OnlyLoses.bind_bind
    {α β γ : Type} {answer full : Option α} {other otherFull : Option β}
    (loses : OnlyLoses answer full) (otherLoses : OnlyLoses other otherFull)
    (next : α → β → Option γ) :
    OnlyLoses (answer.bind fun first => other.bind (next first))
      (full.bind fun first => otherFull.bind (next first)) := by
  rcases otherLoses with rfl | rfl
  · exact Or.inl (by simp)
  · exact loses.bind _

theorem OnlyLoses.map
    {α β : Type} {answer full : Option α} (loses : OnlyLoses answer full) (next : α → β) :
    OnlyLoses (answer.map next) (full.map next) := by
  rw [Option.map_eq_bind, Option.map_eq_bind]
  exact loses.bind _

theorem Catalog.accessType_none (catalog : Catalog) (member : Member) :
    catalog.accessType member none = member.valueType := by
  simp [accessType]

/-- A name without arguments stands for a primitive type or a class without arguments. -/
theorem Catalog.namedType?_ne_applied
    {catalog : Catalog} {name : String} {definition : DefinitionId} {argument : Ty}
    {arguments : List Ty} :
    catalog.namedType? name ≠ some (.classType definition (argument :: arguments)) := by
  intro named
  rw [namedType?] at named
  split at named
  · cases named
  · obtain ⟨_, _, same⟩ := Option.map_eq_some_iff.mp named
    cases same

/-- The roles whose first children a resolution goes on with, one level down. -/
def Payload.resolvedRoles : Payload → List Role
  | .memberReference _ => [.target]
  | .objectCreation | .cast | .wildcardType _ | .composedType _ => [.type]
  | .assignment _ => [.left]
  | .conditional => [.trueExpression, .falseExpression]
  | .binary _ => [.left, .right]
  | .unary _ => [.expression]
  | _ => []

namespace Tree

/-- A resolution goes on with another tree under a lower limit. -/
inductive GoesOn : Tree × DepthLimit → Tree × DepthLimit → Prop
  | role {payload : Payload} {annotations : Annotations} {slots : List (Slot Tree)} {role : Role}
      {child : Tree} {children : List Tree} {limit lower : DepthLimit} :
      role ∈ payload.resolvedRoles → Slot.childrenIn slots role = child :: children →
      limit.down? = some lower → GoesOn (node payload annotations slots, limit) (child, lower)
  | argument {name : String} {annotations : Annotations} {slots : List (Slot Tree)} {child : Tree}
      {limit lower : DepthLimit} :
      child ∈ Slot.childrenIn slots .typeArgument → limit.down? = some lower →
      GoesOn (node (.simpleType name) annotations slots, limit) (child, lower)
  /-- The receiver of an invocation stands two levels down. -/
  | receiver {name : String} {annotations inner : Annotations}
      {slots innerSlots : List (Slot Tree)} {child : Tree} {others children : List Tree}
      {limit middle lower : DepthLimit} :
      Slot.childrenIn slots .target = node (.memberReference name) inner innerSlots :: others →
      Slot.childrenIn innerSlots .target = child :: children →
      limit.down? = some middle → middle.down? = some lower →
      GoesOn (node .invocation annotations slots, limit) (child, lower)

/-- A resolution comes to another tree under a limit. -/
def Consults (tree : Tree) (limit : DepthLimit) (part : Tree) (lower : DepthLimit) : Prop :=
  Relation.ReflTransGen GoesOn (tree, limit) (part, lower)

/-- The member that gives a member reference or an invocation its type. -/
def typingMember? : Tree → Option Member
  | node (.memberReference _) annotations _ => annotations.member.filter Member.isField
  | node .invocation annotations slots => invokedMember? annotations slots
  | _ => none

/-- The type of the receiver of a member reference or an invocation. -/
def receiver? (context : Context) : Tree → DepthLimit → Option Ty
  | node (.memberReference _) _ slots, limit =>
    (resolveRole context .target slots limit).map (·.type)
  | node .invocation _ slots, limit =>
    (limit.down?.bind (resolveReceiver context slots ·)).map (·.type)
  | _, _ => none

/-- The limit hides something that matters for the type of the tree. -/
inductive Misjudges (context : Context) : Tree → DepthLimit → Prop
  | receiver {tree : Tree} {limit : DepthLimit} {member : Member} {receiver : Ty} :
      tree.typingMember? = some member → tree.receiver? context limit = none →
      tree.receiver? context none = some receiver →
      context.catalog.accessType member (some receiver) ≠ member.valueType →
      Misjudges context tree limit
  | arguments {name : String} {annotations : Annotations} {slots : List (Slot Tree)}
      {limit : DepthLimit} {type : Ty} :
      annotations.type = none → context.catalog.namedType? name = some type →
      Slot.childrenIn slots .typeArgument ≠ [] → limit.down? = none →
      Misjudges context (node (.simpleType name) annotations slots) limit

theorem GoesOn.exists_levels
    {tree child : Tree} {levels : Nat} {lower : DepthLimit}
    (goesOn : GoesOn (tree, some levels) (child, lower)) :
    ∃ fewer, lower = some fewer ∧ fewer < levels := by
  have below {limit lower : DepthLimit} {levels : Nat} (isLimit : limit = some levels)
      (down : limit.down? = some lower) : ∃ fewer, lower = some fewer ∧ fewer < levels := by
    subst isLimit
    cases levels with
    | zero =>
        cases down
    | succ fewer =>
        cases down
        exact ⟨fewer, rfl, Nat.lt_succ_self fewer⟩
  cases goesOn with
  | role _ _ down =>
      exact below rfl down
  | argument _ down =>
      exact below rfl down
  | receiver _ _ down downAgain =>
      obtain ⟨middle, rfl, less⟩ := below rfl down
      obtain ⟨fewer, rfl, lessAgain⟩ := below rfl downAgain
      exact ⟨fewer, rfl, by omega⟩

section Limits

variable {context : Context} {slots : List (Slot Tree)} {limit : DepthLimit}

theorem onlyLoses_resolveRole
    {role : Role} (steps : ∀ child children lower, Slot.childrenIn slots role = child :: children →
      limit.down? = some lower →
      OnlyLoses (child.resolve context lower) (child.resolve context none)) :
    OnlyLoses (resolveRole context role slots limit) (resolveRole context role slots none) := by
  rw [resolveRole_eq, resolveRole_eq]
  cases down : limit.down? with
  | none =>
      exact Or.inl rfl
  | some lower =>
      cases children : Slot.childrenIn slots role with
      | nil =>
          exact Or.inl rfl
      | cons child children =>
          exact steps child _ lower ‹_› down

theorem onlyLoses_resolveAll
    {trees : List Tree} (steps : ∀ tree ∈ trees,
      OnlyLoses (tree.resolve context limit) (tree.resolve context none)) :
    OnlyLoses (resolveAll context trees limit) (resolveAll context trees none) := by
  induction trees with
  | nil =>
      exact Or.inr rfl
  | cons tree trees inductionHypothesis =>
      have later := inductionHypothesis fun other member =>
        steps other (List.mem_cons_of_mem _ member)
      exact (steps tree List.mem_cons_self).bind_bind later _

/-- The member of a member reference or an invocation decides about its type. -/
theorem resolve_of_typingMember?
    {tree : Tree} {member : Member} (typed : tree.typingMember? = some member)
    (limit : DepthLimit) :
    tree.resolve context limit =
      some (.ofType (context.catalog.accessType member (tree.receiver? context limit))) := by
  obtain ⟨payload, annotations, slots⟩ := tree
  cases payload with
  | memberReference name =>
      obtain ⟨annotated, isField⟩ := Option.filter_eq_some_iff.mp typed
      simp [resolve_eq, Payload.resolveWith, belowSlots, annotated, isField, receiver?]
  | invocation =>
      have called : (belowSlots context slots limit).calledMember? annotations = some member :=
        typed
      rw [resolve_eq, Payload.resolveWith, called]
      rfl
  | _ =>
      cases typed

/-- Only an array has a type for a member reference without a field. -/
theorem resolve_memberReference_of_typingMember?
    {name : String} {annotations : Annotations}
    (untyped : typingMember? (node (.memberReference name) annotations slots) = none)
    (limit : DepthLimit) :
    (node (.memberReference name) annotations slots).resolve context limit =
      (receiver? context (node (.memberReference name) annotations slots) limit).bind fun target =>
        if annotations.member.isNone ∧ name = "length" ∧ target.isArray then
          some (.ofType (.primitive .int))
        else none := by
  cases annotated : annotations.member with
  | none =>
      cases found : resolveRole context .target slots limit <;>
        simp [resolve_eq, Payload.resolveWith, belowSlots, receiver?, annotated, found]
  | some member =>
      have noField : member.isField = false := by
        simpa [typingMember?, annotated, Option.filter] using untyped
      simp [resolve_eq, Payload.resolveWith, annotated, noField]

theorem onlyLoses_receiver?
    {tree : Tree} (steps : ∀ child lower, GoesOn (tree, limit) (child, lower) →
      OnlyLoses (child.resolve context lower) (child.resolve context none)) :
    OnlyLoses (tree.receiver? context limit) (tree.receiver? context none) := by
  obtain ⟨payload, annotations, slots⟩ := tree
  cases payload with
  | memberReference name =>
      apply OnlyLoses.map
      apply onlyLoses_resolveRole
      intro child children lower found down
      exact steps child lower (.role (List.mem_singleton.mpr rfl) found down)
  | invocation =>
      apply OnlyLoses.map
      cases down : limit.down? with
      | none =>
          exact Or.inl rfl
      | some middle =>
          change OnlyLoses (resolveReceiver context slots middle)
            (resolveReceiver context slots none)
          rw [resolveReceiver_eq, resolveReceiver_eq]
          cases targets : Slot.childrenIn slots .target with
          | nil =>
              exact Or.inl rfl
          | cons target others =>
              obtain ⟨payload, inner, innerSlots⟩ := target
              cases payload with
              | memberReference name =>
                  apply onlyLoses_resolveRole
                  intro child children lower found downAgain
                  exact steps child lower (.receiver targets found down downAgain)
              | _ =>
                  exact Or.inl rfl
  | _ =>
      exact Or.inl rfl

/-- A receiver that is lost does not matter where the tree is judged. -/
theorem accessType_receiver?
    {tree : Tree} {member : Member} (typed : tree.typingMember? = some member)
    (loses : OnlyLoses (tree.receiver? context limit) (tree.receiver? context none))
    (judges : ¬ Misjudges context tree limit) :
    context.catalog.accessType member (tree.receiver? context limit) =
      context.catalog.accessType member (tree.receiver? context none) := by
  rcases loses with lost | same
  · cases full : tree.receiver? context none with
    | none =>
        rw [lost]
    | some receiver =>
        rw [lost, Catalog.accessType_none]
        by_contra differs
        exact judges (.receiver typed lost full (Ne.symm differs))
  · rw [same]

theorem onlyLoses_resolve_simpleType
    {name : String} {annotations : Annotations}
    (steps : ∀ child lower,
      GoesOn (node (.simpleType name) annotations slots, limit) (child, lower) →
      OnlyLoses (child.resolve context lower) (child.resolve context none))
    (judges : ¬ Misjudges context (node (.simpleType name) annotations slots) limit) :
    OnlyLoses ((node (.simpleType name) annotations slots).resolve context limit)
      ((node (.simpleType name) annotations slots).resolve context none) := by
  simp only [resolve_eq, Payload.resolveWith, belowSlots]
  cases annotated : annotations.type with
  | some type =>
      exact Or.inr rfl
  | none =>
      cases known : context.catalog.namedType? name with
      | none =>
          exact Or.inr rfl
      | some type =>
          cases down : limit.down? with
          | none =>
              have noArguments : Slot.childrenIn slots .typeArgument = [] := by
                by_contra arguments
                exact judges (.arguments annotated known arguments down)
              exact Or.inr (by simp [DepthLimit.down?, noArguments])
          | some lower =>
              have arguments := onlyLoses_resolveAll fun child member =>
                steps child lower (.argument member down)
              simp only [resolveArguments_eq, DepthLimit.down?, Option.bind_eq_bind,
                Option.bind_some]
              by_cases empty : (Slot.childrenIn slots .typeArgument).isEmpty = true
              · simp only [if_pos empty]
                exact Or.inr rfl
              · simp only [if_neg empty]
                cases type.definition? with
                | none =>
                    exact Or.inr rfl
                | some definition =>
                    exact arguments.bind _

/-- A tree is judged as without a limit when the trees that it goes on with are. -/
theorem onlyLoses_resolve_of_steps
    {tree : Tree} (steps : ∀ child lower, GoesOn (tree, limit) (child, lower) →
      OnlyLoses (child.resolve context lower) (child.resolve context none))
    (judges : ¬ Misjudges context tree limit) :
    OnlyLoses (tree.resolve context limit) (tree.resolve context none) := by
  have receivers := onlyLoses_receiver? steps
  cases typed : tree.typingMember? with
  | some member =>
      rw [resolve_of_typingMember? typed, resolve_of_typingMember? typed,
        accessType_receiver? typed receivers judges]
      exact Or.inr rfl
  | none =>
      obtain ⟨payload, annotations, slots⟩ := tree
      have roles {role : Role} (isRole : role ∈ payload.resolvedRoles) :
          OnlyLoses (resolveRole context role slots limit) (resolveRole context role slots none) :=
        onlyLoses_resolveRole fun child children lower found down =>
          steps child lower (.role isRole found down)
      cases payload with
      | memberReference name =>
          rw [resolve_memberReference_of_typingMember? typed,
            resolve_memberReference_of_typingMember? typed]
          exact receivers.bind _
      | invocation =>
          have notCalled (limit : DepthLimit) :
              (belowSlots context slots limit).calledMember? annotations = none :=
            typed
          exact Or.inr (by simp [resolve_eq, Payload.resolveWith, notCalled])
      | objectCreation =>
          exact (roles (List.mem_singleton.mpr rfl)).map _
      | cast =>
          exact (roles (List.mem_singleton.mpr rfl)).map _
      | assignment operator =>
          exact (roles (List.mem_singleton.mpr rfl)).map _
      | conditional =>
          exact (roles (by decide)).bind_bind (roles (by decide)) _
      | binary operator =>
          simp only [resolve_eq, Payload.resolveWith, belowSlots]
          split
          · exact Or.inr rfl
          · split
            · exact Or.inr rfl
            · exact (roles (by simp [Payload.resolvedRoles])).bind_bind
                (roles (by simp [Payload.resolvedRoles])) _
      | unary operator =>
          have operand := roles (List.mem_singleton.mpr rfl)
          cases operator with
          | not =>
              exact Or.inr rfl
          | any =>
              exact Or.inr rfl
          | _ =>
              exact operand.bind _
      | simpleType name =>
          exact onlyLoses_resolve_simpleType steps judges
      | wildcardType form =>
          have bound := roles (List.mem_singleton.mpr rfl)
          cases annotated : annotations.type with
          | some type =>
              exact Or.inr (by simp [resolve_eq, Payload.resolveWith, annotated])
          | none =>
              cases form with
              | unbounded =>
                  exact Or.inr (by simp [resolve_eq, Payload.resolveWith, annotated])
              | upper =>
                  simpa [resolve_eq, Payload.resolveWith, belowSlots, annotated] using bound.map _
              | lower =>
                  simpa [resolve_eq, Payload.resolveWith, belowSlots, annotated] using bound.map _
      | composedType rank =>
          simp only [resolve_eq, Payload.resolveWith, belowSlots]
          cases annotations.type with
          | some type =>
              exact Or.inr rfl
          | none =>
              exact (roles (List.mem_singleton.mpr rfl)).map _
      | _ =>
          exact Or.inr rfl

/-- Where everything that is consulted is judged, the limit only loses answers. -/
theorem onlyLoses_resolve
    {tree : Tree} (judges : ∀ part lower, tree.Consults limit part lower →
      ¬ Misjudges context part lower) :
    OnlyLoses (tree.resolve context limit) (tree.resolve context none) := by
  cases limit with
  | none =>
      exact Or.inr rfl
  | some levels =>
      -- All lower limits are needed: a receiver of an invocation stands two levels down.
      induction levels using Nat.strongRecOn generalizing tree with
      | ind levels inductionHypothesis =>
          apply onlyLoses_resolve_of_steps _ (judges tree _ .refl)
          intro child lower goesOn
          obtain ⟨fewer, rfl, less⟩ := goesOn.exists_levels
          apply inductionHypothesis fewer less
          intro part least consults
          exact judges part least (.head goesOn consults)

theorem exists_cons_of_resolveAll
    {tree : Tree} {trees : List Tree} {types : List Ty}
    (known : resolveAll context (tree :: trees) limit = some types) :
    ∃ first rest, types = first :: rest := by
  simp only [resolveAll, Option.bind_eq_bind, Option.bind_eq_some_iff] at known
  obtain ⟨first, _, rest, _, same⟩ := known
  cases same
  exact ⟨_, _, rfl⟩

/-- A tree that is misjudged has an answer, but not the full one. -/
theorem Misjudges.answers
    {tree : Tree} (misjudges : Misjudges context tree limit) :
    tree.resolve context limit ≠ none ∧
      tree.resolve context limit ≠ tree.resolve context none := by
  cases misjudges with
  | receiver typed lost full differs =>
      rw [resolve_of_typingMember? typed, resolve_of_typingMember? typed, lost, full,
        Catalog.accessType_none]
      refine ⟨Option.some_ne_none _, ?_⟩
      intro same
      injection same with same
      injection same with same
      exact differs same.symm
  | @arguments name annotations slots limit type annotated known present down =>
      obtain ⟨child, children, found⟩ := List.exists_cons_of_ne_nil present
      have answer : (node (.simpleType name) annotations slots).resolve context limit =
          some (.ofType type) := by
        simp [resolve_eq, Payload.resolveWith, belowSlots, annotated, known, down]
      rw [answer]
      refine ⟨Option.some_ne_none _, ?_⟩
      intro same
      simp only [resolve_eq, Payload.resolveWith, belowSlots, annotated, known, resolveArguments_eq,
        found, DepthLimit.down?, List.isEmpty_cons, Bool.false_eq_true, if_false,
        Option.bind_eq_bind, Option.bind_some] at same
      obtain ⟨definition, isClass, same⟩ := Option.bind_eq_some_iff.mp same.symm
      obtain ⟨arguments, resolved, same⟩ := Option.bind_eq_some_iff.mp same
      obtain ⟨first, rest, rfl⟩ := exists_cons_of_resolveAll resolved
      injection same with same
      injection same with same
      rw [← same] at known
      exact Catalog.namedType?_ne_applied known

/-- The limit only loses the answer, unless something is misjudged that is consulted for it. -/
theorem onlyLoses_resolve_or_misjudges (tree : Tree) :
    OnlyLoses (tree.resolve context limit) (tree.resolve context none) ∨
      ∃ part lower, tree.Consults limit part lower ∧ part.Misjudges context lower := by
  by_cases judges : ∀ part lower, tree.Consults limit part lower → ¬ part.Misjudges context lower
  · exact Or.inl (onlyLoses_resolve judges)
  · push Not at judges
    exact Or.inr judges

end Limits

end Tree

namespace Store

/-- The limit only loses the answer for a node, unless something is misjudged that is consulted for
it. What is misjudged has a wrong answer itself. -/
theorem onlyLoses_resolve_or
    {store : Store} (wellFormed : store.WellFormed) (context : Context) (node : NodeRef) :
    (OnlyLoses (store.resolve context node) ((store.tree? node).bind (·.resolve context none)) ∨
      ∃ tree part lower, store.tree? node = some tree ∧
        tree.Consults resolveLimit part lower ∧ part.Misjudges context lower) ∧
    ∀ part lower, Tree.Misjudges context part lower →
      part.resolve context lower ≠ none ∧
        part.resolve context lower ≠ part.resolve context none := by
  refine ⟨?_, fun part lower misjudges => misjudges.answers⟩
  rw [wellFormed.resolve_eq]
  cases store.tree? node with
  | none =>
      exact Or.inl (Or.inl rfl)
  | some tree =>
      rcases tree.onlyLoses_resolve_or_misjudges with loses | ⟨part, lower, consults, misjudges⟩
      · exact Or.inl loses
      · exact Or.inr ⟨tree, part, lower, rfl, consults, misjudges⟩

/-- The standard classes and a generic class with one parameter. -/
def boxContext : Context :=
  .ofCatalog (Catalog.standard.insert
    { Definition.ofClass "Box" with parameters := [⟨"T", none⟩] }).2

/-- The access `b.content`, where `b` is a `Box<String>` and the field has the type of the
parameter. -/
def contentAccess : Tree :=
  .node (.memberReference "content")
    ⟨some ⟨"content", .raw ⟨15⟩, .field (.typeVariable ⟨"T", some ⟨15⟩⟩ none)⟩, none⟩
    [⟨.target, [.node (.identifier "b") ⟨none, some (.classType ⟨15⟩ [.raw ⟨6⟩])⟩ []]⟩,
      ⟨.dot, [.node (.token ".") .empty []]⟩, ⟨.typeArgument, []⟩]

/-- Builds the access to the field. -/
def buildContentAccess : Edit NodeId := do
  let receiver ← Edit.mkNode (.identifier "b")
  Edit.setType (some receiver) (.classType ⟨15⟩ [.raw ⟨6⟩])
  let access ← Edit.mkAccess (some receiver) "content" []
  Edit.setMember (some access)
    ⟨"content", .raw ⟨15⟩, .field (.typeVariable ⟨"T", some ⟨15⟩⟩ none)⟩
  return access

/-- A store with nothing but the access, which is its second node. -/
def contentStore : Store :=
  (buildContentAccess.run .empty).2

theorem wellFormed_contentStore : contentStore.WellFormed := by
  refine Edit.Structural.keepsWellFormed ?_ _ wellFormed_empty
  exact .bind (.mkNode _) fun _ => .bind (.setType _ _) fun _ => .bind (.mkAccess _ _ _) fun _ =>
    .bind (.setMember _ _) fun _ => .pure _

/-- For the access alone the limit loses nothing: it is of the type that its receiver gives it. -/
theorem onlyLoses_resolve_or_of_contentAccess :
    (OnlyLoses (contentStore.resolve boxContext (some 1))
        ((contentStore.tree? (some 1)).bind (·.resolve boxContext none)) ∨
      ∃ tree part lower, contentStore.tree? (some 1) = some tree ∧
        tree.Consults resolveLimit part lower ∧ part.Misjudges boxContext lower) ∧
    (contentStore.resolve boxContext (some 1)).map (·.type) = some (.raw ⟨6⟩) :=
  ⟨(onlyLoses_resolve_or wellFormed_contentStore boxContext (some 1)).1, rfl⟩

/-- A tree under a number of increments. -/
def incremented (tree : Tree) : (increments : Nat) → Tree
  | 0 => tree
  | increments + 1 =>
    .node (.unary .preIncrement) .empty [⟨.expression, [incremented tree increments]⟩]

/-- An increment is of the type of its operand. -/
theorem resolve_increment
    {context : Context} {limit lower : DepthLimit} (down : limit.down? = some lower) (tree : Tree)
    (increments : Nat) :
    ((incremented tree (increments + 1)).resolve context limit).map (·.type) =
      ((incremented tree increments).resolve context lower).map (·.type) := by
  cases known : (incremented tree increments).resolve context lower <;>
    simp [incremented, Tree.resolve_eq, Payload.resolveWith, Tree.belowSlots, Tree.resolveRole_eq,
      Slot.childrenIn, down, known, UnaryOperator.changesOperand, Resolved.ofType]

theorem resolve_incremented
    (context : Context) (tree : Tree) (increments levels : Nat) :
    ((incremented tree increments).resolve context (some (levels + increments))).map (·.type) =
      (tree.resolve context (some levels)).map (·.type) := by
  induction increments with
  | zero =>
      rfl
  | succ increments inductionHypothesis =>
      rw [← inductionHypothesis]
      exact resolve_increment rfl tree increments

theorem resolve_incremented_none (context : Context) (tree : Tree) (increments : Nat) :
    ((incremented tree increments).resolve context none).map (·.type) =
      (tree.resolve context none).map (·.type) := by
  induction increments with
  | zero =>
      rfl
  | succ increments inductionHypothesis =>
      rw [← inductionHypothesis]
      exact resolve_increment rfl tree increments

theorem exists_contentAccess :
    ∃ (store : Store) (branch : Branch), store.WellFormed ∧ Branch.Hosted store [] branch ∧
      branch.toTree = contentAccess := by
  have inside : 1 < contentStore.size := by decide +kernel
  have unplaced : contentStore.place? (some 1) = none := by decide +kernel
  obtain ⟨branch, held, isTop⟩ := Branch.exists_branch wellFormed_contentStore inside
  refine ⟨_, branch, wellFormed_contentStore, ⟨held, isTop ▸ unplaced⟩, ?_⟩
  have known := held.tree?_eq wellFormed_contentStore
  rw [isTop] at known
  exact (Option.some.inj known).symm

/-- Every number of increments stands in some store. -/
theorem exists_incremented (increments : Nat) :
    ∃ (store : Store) (branch : Branch), store.WellFormed ∧ Branch.Hosted store [] branch ∧
      branch.toTree = incremented contentAccess increments := by
  induction increments with
  | zero =>
      exact exists_contentAccess
  | succ increments inductionHypothesis =>
      obtain ⟨store, branch, wellFormed, hosted, same⟩ := inductionHypothesis
      obtain ⟨changed, _, becomes⟩ := Branch.run_mkNodeWith wellFormed (.unary .preIncrement)
        [(.expression, branch)] (by simpa using hosted) (by simp)
        (by simp [Payload.kind, NodeKind.roles])
        (by intro role _; exact List.length_filter_le _ _)
      refine ⟨changed, _, becomes.wellFormed, becomes.hosted, ?_⟩
      rw [incremented, ← same]
      rfl

/-- Under so many increments that the resolution just comes to the access, its receiver is lost and
the type is that of the parameter. -/
theorem resolve_changes_answer :
    ¬ ∀ (store : Store) (context : Context) (node : NodeRef), store.WellFormed →
      OnlyLoses (store.resolve context node)
        ((store.tree? node).bind (·.resolve context none)) := by
  intro loses
  obtain ⟨store, branch, wellFormed, hosted, same⟩ := exists_incremented 256
  have answer := (loses store boxContext (some branch.id) wellFormed).map (·.type)
  rw [wellFormed.resolve_eq, hosted.held.tree?_eq wellFormed, Option.bind_some, Option.bind_some,
    same, resolveLimit, resolveLevels, resolve_incremented boxContext contentAccess 256 0,
    resolve_incremented_none] at answer
  have limited : (contentAccess.resolve boxContext (some 0)).map (·.type) =
      some (.typeVariable ⟨"T", some ⟨15⟩⟩ none) := rfl
  have full : (contentAccess.resolve boxContext none).map (·.type) = some (.raw ⟨6⟩) := rfl
  rw [limited, full] at answer
  rcases answer with lost | same
  · cases lost
  · cases same

end Store

end TypedJava
