import TypedJava.Proofs.Store.Lookup
import TypedJava.Typing

/-! # Resolution of trees

The rules of resolution over trees instead of stored nodes. A tree has an end, so they need no limit
on the levels here and can go down all the way. A resolution goes on with the first child in a role,
with all type arguments, or with the target of the member that an invocation calls. -/

namespace TypedJava

/-- The number of levels that a resolution may still go down; `none` sets no limit. -/
abbrev DepthLimit := Option Nat

/-- The limit one level further down, unless it is used up. -/
def DepthLimit.down? : DepthLimit → Option DepthLimit
  | none => some none
  | some 0 => none
  | some (levels + 1) => some (some levels)

/-- The limit of the resolution of one expression. -/
def resolveLimit : DepthLimit := some resolveLevels

namespace Tree

/-- The member that an invocation calls: its own annotation, or else that of its target. -/
def invokedMember? (annotations : Annotations) (slots : List (Slot Tree)) : Option Member :=
  (annotations.member.or
    ((Slot.childrenIn slots .target).head?.bind (·.annotations.member))).filter Member.isMethod

mutual

/-- The type of an expression or of type syntax. -/
def resolve (context : Context) : Tree → DepthLimit → Option Resolved
  | node payload annotations slots, limit =>
    payload.resolveWith context annotations {
      child := fun role => resolveRole context role slots limit
      targetMember := fun _ => (Slot.childrenIn slots .target).head?.bind (·.annotations.member)
      receiver := fun _ => limit.down?.bind (resolveReceiver context slots ·)
      arguments := fun _ => limit.down?.bind fun lower =>
        if (Slot.childrenIn slots .typeArgument).isEmpty then none
        else some (resolveArguments context slots lower) }
termination_by structural tree => tree

/-- The type of the first child in a role, one level down. -/
def resolveRole (context : Context) (role : Role) :
    List (Slot Tree) → DepthLimit → Option Resolved
  | [], _ => none
  | ⟨slotRole, children⟩ :: slots, limit =>
    if slotRole = role then limit.down?.bind (resolveFirst context children ·)
    else resolveRole context role slots limit
termination_by structural slots => slots

/-- The type of the first of several trees. -/
def resolveFirst (context : Context) : List Tree → DepthLimit → Option Resolved
  | [], _ => none
  | tree :: _, limit => resolve context tree limit
termination_by structural trees => trees

/-- The type of the receiver of an invocation: the target of the member that it calls. -/
def resolveReceiver (context : Context) : List (Slot Tree) → DepthLimit → Option Resolved
  | [], _ => none
  | ⟨slotRole, children⟩ :: slots, limit =>
    if slotRole = .target then resolveQualifier context children limit
    else resolveReceiver context slots limit
termination_by structural slots => slots

/-- The type of the target of a member reference that comes first. -/
def resolveQualifier (context : Context) : List Tree → DepthLimit → Option Resolved
  | node (.memberReference _) _ slots :: _, limit => resolveRole context .target slots limit
  | _, _ => none
termination_by structural trees => trees

/-- The types of all type arguments, unless one of them is unknown. -/
def resolveArguments (context : Context) : List (Slot Tree) → DepthLimit → Option (List Ty)
  | [], _ => some []
  | ⟨slotRole, children⟩ :: slots, limit =>
    if slotRole = .typeArgument then resolveAll context children limit
    else resolveArguments context slots limit
termination_by structural slots => slots

/-- The types of several trees, unless one of them is unknown. -/
def resolveAll (context : Context) : List Tree → DepthLimit → Option (List Ty)
  | [], _ => some []
  | tree :: trees, limit => do
    let first ← resolve context tree limit
    let rest ← resolveAll context trees limit
    some (first.type :: rest)
termination_by structural trees => trees

end

/-- What stands below a tree with the slots. -/
def belowSlots (context : Context) (slots : List (Slot Tree)) (limit : DepthLimit) : Below where
  child role := resolveRole context role slots limit
  targetMember _ := (Slot.childrenIn slots .target).head?.bind (·.annotations.member)
  receiver _ := limit.down?.bind (resolveReceiver context slots ·)
  arguments _ := limit.down?.bind fun lower =>
    if (Slot.childrenIn slots .typeArgument).isEmpty then none
    else some (resolveArguments context slots lower)

variable {context : Context} {slots : List (Slot Tree)} {limit : DepthLimit}

theorem resolve_eq (payload : Payload) (annotations : Annotations) :
    (node payload annotations slots).resolve context limit =
      payload.resolveWith context annotations (belowSlots context slots limit) :=
  rfl

theorem resolveFirst_eq (children : List Tree) :
    resolveFirst context children limit = children.head?.bind (·.resolve context limit) := by
  cases children <;> rfl

theorem resolveRole_eq (role : Role) :
    resolveRole context role slots limit = limit.down?.bind fun lower =>
      (Slot.childrenIn slots role).head?.bind (·.resolve context lower) := by
  induction slots with
  | nil =>
      simp [resolveRole, Slot.childrenIn_nil]
  | cons slot slots inductionHypothesis =>
      rw [resolveRole, Slot.childrenIn_cons]
      split
      · exact congrArg _ (funext fun _ => resolveFirst_eq slot.children)
      · exact inductionHypothesis

theorem resolveReceiver_eq :
    resolveReceiver context slots limit =
      resolveQualifier context (Slot.childrenIn slots .target) limit := by
  induction slots with
  | nil =>
      rfl
  | cons slot slots inductionHypothesis =>
      rw [resolveReceiver, Slot.childrenIn_cons]
      split
      · rfl
      · exact inductionHypothesis

theorem resolveQualifier_eq (children : List Tree) :
    resolveQualifier context children limit =
      children.head?.bind (resolveQualifier context [·] limit) := by
  cases children with
  | nil =>
      rfl
  | cons first rest =>
      obtain ⟨payload, annotations, slots⟩ := first
      cases payload <;> rfl

theorem resolveArguments_eq :
    resolveArguments context slots limit =
      resolveAll context (Slot.childrenIn slots .typeArgument) limit := by
  induction slots with
  | nil =>
      rfl
  | cons slot slots inductionHypothesis =>
      rw [resolveArguments, Slot.childrenIn_cons]
      split
      · rfl
      · exact inductionHypothesis

end Tree

end TypedJava
