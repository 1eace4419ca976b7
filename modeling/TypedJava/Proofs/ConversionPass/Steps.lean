import TypedJava.ConversionPass
import TypedJava.Proofs.Branch.Visit
import TypedJava.Proofs.TypeSyntax.Written
import TypedJava.Proofs.Typing.OnTrees

/-! # The steps of the conversion pass on branches

What each rule of the pass makes of a branch, as relations between the branch before and after. The
identifiers of new nodes are not fixed, only that they are new. The relations mention the frame
around a branch where a rule looks at the parent. -/

namespace TypedJava

/-- What the pass does with a node besides going below it. -/
inductive Handling where
  | leave | descend | access | cast | assignment
  deriving DecidableEq

def Payload.handling : Payload → Handling
  | .memberReference _ => .access
  | .cast => .cast
  | .assignment operator => if operator = .assign then .assignment else .descend
  | .invocation | .objectCreation | .conditional | .binary _ | .unary _ => .descend
  | .block | .expressionStatement | .returnStatement | .variableDeclaration _ => .descend
  | .literal _ | .nullReference | .identifier _ | .this | .simpleType _ | .wildcardType _ => .leave
  | .composedType _ | .token _ | .placeholder _ _ => .leave

theorem Payload.eq_cast_of_handling {payload : Payload} (isCast : payload.handling = .cast) :
    payload = .cast := by
  cases payload with
  | cast =>
      rfl
  | assignment operator =>
      rw [handling] at isCast
      split at isCast <;> cases isCast
  | _ =>
      cases isCast

namespace Payload

variable {payload : Payload}

theorem handling_eq_access_iff : payload.handling = .access ↔ payload.kind = .memberReference := by
  cases payload with
  | assignment operator =>
      by_cases simple : operator = .assign <;> simp [handling, simple, kind]
  | _ =>
      simp [handling, kind]

theorem handling_eq_cast_iff : payload.handling = .cast ↔ payload.kind = .cast := by
  cases payload with
  | assignment operator =>
      by_cases simple : operator = .assign <;> simp [handling, simple, kind]
  | _ =>
      simp [handling, kind]

theorem handling_eq_assignment_iff :
    payload.handling = .assignment ↔ payload = .assignment .assign := by
  cases payload with
  | assignment operator =>
      by_cases simple : operator = .assign <;> simp [handling, simple]
  | _ =>
      simp [handling]

end Payload

namespace Branch

/-- The type of the expression at the top, with its value. -/
def resolved? (context : Context) (branch : Branch) : Option Resolved :=
  branch.toTree.resolve context resolveLimit

def typeOf? (context : Context) (branch : Branch) : Option Ty :=
  (branch.resolved? context).map (·.type)

def typeIn? (context : Context) (branch : Branch) (role : Role) : Option Ty :=
  (branch.child? role).bind (·.typeOf? context)

/-- The member that a member reference accesses. -/
def accessedMember? (surroundings : Option Frame) (branch : Branch) : Option Member :=
  branch.annotations.member.or <| surroundings.bind fun frame =>
    if frame.role = .target then frame.annotations.member else none

/-- Does the program mean the same without the cast at the top? -/
def isNeedlessCast (context : Context) (surroundings : Option Frame) (cast : Branch) : Bool :=
  cast.payload.kind == .cast &&
    match cast.typeIn? context .type, (cast.child? .expression).bind (·.resolved? context) with
    | some castType, some source =>
      source.type == castType ||
        match surroundings with
        | some frame =>
          context.isNeedlessUnder (some frame.payload) (fun role => (frame.fill cast).typeIn? context role)
            frame.role source castType
        | none => false
    | _, _ => false

end Branch

/-- The gap is the first child in a role. -/
structure Frame.IsFirst (frame : Frame) (role : Role) : Prop where
  role_eq : frame.role = role
  before : ∀ entry ∈ frame.before, entry.1 ≠ role

namespace Branch

section Rules

variable (context : Context) (bound : Nat)

/-- A new cast to a type around an operand. -/
inductive WrapsInCast (options : TypeSyntaxOptions) (type : Ty) (operand : Branch) :
    Branch → Prop
  | mk {written cast : Branch} :
      IsWritten bound (type.writable context.catalog options true) written →
      IsCastOf bound written operand cast → WrapsInCast options type operand cast

variable (again : Option Frame → Branch → Branch → Prop)

/-- What becomes of a new conditional between one and zero. -/
inductive FinishesConditional (frame : Frame) (target : Ty) (conditional : Branch) :
    Branch → Prop
  | wide {result : Branch} :
      target.primitiveKind?.any (·.width < 32) = false →
      again (some frame) conditional result → FinishesConditional frame target conditional result
  | unwritten :
      target.primitiveKind?.any (·.width < 32) = true → context.typeSyntax = none →
      FinishesConditional frame target conditional conditional
  | needless {options : TypeSyntaxOptions} {cast result : Branch} :
      target.primitiveKind?.any (·.width < 32) = true → context.typeSyntax = some options →
      WrapsInCast context bound options target conditional cast →
      cast.isNeedlessCast context (some frame) = true →
      again (some frame) conditional result → FinishesConditional frame target conditional result
  | needed {options : TypeSyntaxOptions} {cast result : Branch} :
      target.primitiveKind?.any (·.width < 32) = true → context.typeSyntax = some options →
      WrapsInCast context bound options target conditional cast →
      cast.isNeedlessCast context (some frame) = false →
      again (some frame) cast result → FinishesConditional frame target conditional result

/-- Does a value of the source type become a number of the target type? -/
def becomesNumber (catalog : Catalog) (target source : Ty) : Prop :=
  catalog.underlyingKind? source = some .boolean ∧ target.isNumeric = true

/-- Does a number of a kind become a truth value? -/
def becomesTruth (catalog : Catalog) (target source : Ty) (kind : JvmKind) : Prop :=
  catalog.underlyingKind? source = some kind ∧ kind.isNumeric = true ∧ target.isBoolean = true

/-- The two literals that stand for truth values among the values of a type. -/
def truthLiterals? (target : Ty) : Option (Literal × Literal) :=
  target.primitiveKind?.bind Literal.ofBoolean?

/-- What becomes of a cast of an operand. -/
inductive TreatsCast (surroundings : Option Frame) : Branch → Branch → Prop
  | unknown {cast : Branch} :
      cast.typeIn? context .type = none ∨ cast.typeIn? context .expression = none →
      TreatsCast surroundings cast cast
  | legal {cast : Branch} {target source : Ty} :
      cast.typeIn? context .type = some target → cast.typeIn? context .expression = some source →
      context.catalog.conversion target source ≠ .none → TreatsCast surroundings cast cast
  | detached {cast : Branch} {target source : Ty} :
      cast.typeIn? context .type = some target → cast.typeIn? context .expression = some source →
      context.catalog.conversion target source = .none → surroundings = none →
      becomesNumber context.catalog target source ∨
        (∃ kind, becomesTruth context.catalog target source kind) →
      TreatsCast surroundings cast cast
  | noLiterals {cast : Branch} {target source : Ty} :
      cast.typeIn? context .type = some target → cast.typeIn? context .expression = some source →
      context.catalog.conversion target source = .none →
      becomesNumber context.catalog target source → truthLiterals? target = none →
      TreatsCast surroundings cast cast
  | toNumber {cast operand conditional result : Branch} {frame : Frame} {target source : Ty}
      {one zero : Literal} :
      cast.typeIn? context .type = some target → cast.child? .expression = some operand →
      operand.typeOf? context = some source →
      context.catalog.conversion target source = .none → surroundings = some frame →
      becomesNumber context.catalog target source → truthLiterals? target = some (one, zero) →
      IsConditionalOf bound one zero operand conditional →
      FinishesConditional context bound again frame target conditional result →
      TreatsCast surroundings cast result
  | toTruth {cast operand comparison result : Branch} {frame : Frame} {target source : Ty}
      {kind : JvmKind} :
      cast.typeIn? context .type = some target → cast.child? .expression = some operand →
      operand.typeOf? context = some source →
      context.catalog.conversion target source = .none → surroundings = some frame →
      becomesTruth context.catalog target source kind →
      IsComparisonOf bound ((Literal.zero? kind).getD (.int 0)) operand comparison →
      again (some frame) comparison result → TreatsCast surroundings cast result
  | unwritten {cast : Branch} {target source : Ty} :
      cast.typeIn? context .type = some target → cast.typeIn? context .expression = some source →
      context.catalog.conversion target source = .none → context.typeSyntax = none →
      TreatsCast surroundings cast cast
  | detour {operand wrapped result : Branch} {frame : Frame} {options : TypeSyntaxOptions}
      {target source : Ty} :
      frame.IsFirst .expression → (frame.fill operand).typeIn? context .type = some target →
      operand.typeOf? context = some source →
      context.catalog.conversion target source = .none →
      ¬ becomesNumber context.catalog target source →
      (∀ kind, ¬ becomesTruth context.catalog target source kind) →
      context.typeSyntax = some options →
      WrapsInCast context bound options context.catalog.objectType operand wrapped →
      again (some frame) wrapped result →
      TreatsCast surroundings (frame.fill operand) (frame.fill result)

/-- The cast that the value of an assignment needs, if any. -/
inductive CastsValue (target source : Ty) (value : Branch) : Branch → Prop
  | kept :
      (context.catalog.conversion target source).isExplicit = false ∨ context.typeSyntax = none →
      CastsValue target source value value
  | cast {options : TypeSyntaxOptions} {wrapped : Branch} :
      (context.catalog.conversion target source).isExplicit = true →
      context.typeSyntax = some options →
      WrapsInCast context bound { options with allowWildcards := false } target value wrapped →
      CastsValue target source value wrapped

/-- What becomes of a simple assignment. -/
inductive TreatsAssignment : Branch → Branch → Prop
  | unknown {node : Branch} :
      node.typeIn? context .left = none ∨ node.typeIn? context .right = none →
      TreatsAssignment node node
  | plain {frame : Frame} {value cast : Branch} {target source : Ty} :
      frame.IsFirst .right → (frame.fill value).typeIn? context .left = some target →
      value.typeOf? context = some source → CastsValue context bound target source value cast →
      ¬ becomesNumber context.catalog target source →
      (∀ kind, ¬ becomesTruth context.catalog target source kind) →
      TreatsAssignment (frame.fill value) (frame.fill cast)
  | noLiterals {frame : Frame} {value cast : Branch} {target source : Ty} :
      frame.IsFirst .right → (frame.fill value).typeIn? context .left = some target →
      value.typeOf? context = some source → CastsValue context bound target source value cast →
      becomesNumber context.catalog target source → truthLiterals? target = none →
      TreatsAssignment (frame.fill value) (frame.fill cast)
  | toNumber {frame : Frame} {value cast conditional result : Branch} {target source : Ty}
      {one zero : Literal} :
      frame.IsFirst .right → (frame.fill value).typeIn? context .left = some target →
      value.typeOf? context = some source → CastsValue context bound target source value cast →
      becomesNumber context.catalog target source → truthLiterals? target = some (one, zero) →
      IsConditionalOf bound one zero cast conditional →
      FinishesConditional context bound again frame target conditional result →
      TreatsAssignment (frame.fill value) (frame.fill result)
  | toTruth {frame : Frame} {value cast comparison result : Branch} {target source : Ty}
      {kind : JvmKind} :
      frame.IsFirst .right → (frame.fill value).typeIn? context .left = some target →
      value.typeOf? context = some source → CastsValue context bound target source value cast →
      becomesTruth context.catalog target source kind →
      IsComparisonOf bound ((Literal.zero? kind).getD (.int 0)) cast comparison →
      again (some frame) comparison result →
      TreatsAssignment (frame.fill value) (frame.fill result)

/-- What becomes of a member reference. -/
inductive TreatsAccess (surroundings : Option Frame) : Branch → Branch → Prop
  | unknown {node : Branch} :
      accessedMember? surroundings node = none ∨ node.typeIn? context .target = none ∨
        context.typeSyntax = none →
      TreatsAccess surroundings node node
  | settled {node : Branch} {member : Member} {receiver : Ty} :
      accessedMember? surroundings node = some member →
      node.typeIn? context .target = some receiver →
      context.catalog.isSubtype receiver member.declaringType = true →
      TreatsAccess surroundings node node
  | wrapped {frame : Frame} {target cast result : Branch} {member : Member} {receiver : Ty}
      {options : TypeSyntaxOptions} :
      frame.IsFirst .target → accessedMember? surroundings (frame.fill target) = some member →
      target.typeOf? context = some receiver → context.typeSyntax = some options →
      context.catalog.isSubtype receiver member.declaringType = false →
      WrapsInCast context bound options (context.receiverCastType receiver member) target cast →
      again (some frame) cast result →
      TreatsAccess surroundings (frame.fill target) (frame.fill result)

/-- What becomes of a node: first of what is below it, then of the node itself. -/
inductive TreatsNode (descend : Branch → Branch → Prop) (surroundings : Option Frame)
    (branch : Branch) : Branch → Prop
  | leave :
      branch.payload.handling = .leave → TreatsNode descend surroundings branch branch
  | descend {result : Branch} :
      branch.payload.handling = .descend → descend branch result →
      TreatsNode descend surroundings branch result
  | access {middle result : Branch} :
      branch.payload.handling = .access → descend branch middle →
      TreatsAccess context bound again surroundings middle result →
      TreatsNode descend surroundings branch result
  | cast {middle result : Branch} :
      branch.payload.handling = .cast → descend branch middle →
      TreatsCast context bound again surroundings middle result →
      TreatsNode descend surroundings branch result
  | assignment {middle result : Branch} :
      branch.payload.handling = .assignment → descend branch middle →
      TreatsAssignment context bound again middle result →
      TreatsNode descend surroundings branch result

variable {context : Context} {bound : Nat} {again : Option Frame → Branch → Branch → Prop}
  {below : Branch → Branch → Prop} {surroundings : Option Frame} {branch result : Branch}

theorem TreatsNode.of_descend
    (isDescend : branch.payload.handling = .descend)
    (treats : TreatsNode context bound again below surroundings branch result) :
    below branch result := by
  cases treats with
  | descend _ related =>
      exact related
  | leave isOther =>
      simp [isDescend] at isOther
  | access isOther _ _ =>
      simp [isDescend] at isOther
  | cast isOther _ _ =>
      simp [isDescend] at isOther
  | assignment isOther _ _ =>
      simp [isDescend] at isOther

theorem TreatsNode.of_cast
    (isCast : branch.payload.handling = .cast)
    (treats : TreatsNode context bound again below surroundings branch result) :
    ∃ middle, below branch middle ∧
      TreatsCast context bound again surroundings middle result := by
  cases treats with
  | cast _ related treats =>
      exact ⟨_, related, treats⟩
  | leave isOther =>
      simp [isCast] at isOther
  | descend isOther _ =>
      simp [isCast] at isOther
  | access isOther _ _ =>
      simp [isCast] at isOther
  | assignment isOther _ _ =>
      simp [isCast] at isOther

end Rules

/-- What becomes of a branch when its children are visited. -/
inductive Descends (visit : Option Frame → Branch → Branch → Prop) (branch : Branch) :
    Branch → Prop
  | mk {children : List (Role × Branch)} :
      VisitsChildren visit branch.id branch.payload branch.annotations [] branch.children
        children →
      Descends visit branch (.node branch.id branch.payload branch.annotations children)

/-- What the pass makes of a branch within a number of levels. What is beyond the limit stays as it
is; without cuts there must be nothing beyond it. -/
def Converts (context : Context) (bound : Nat) (mayCut : Prop) :
    (fuel : Nat) → Option Frame → Branch → Branch → Prop
  | 0 => TreatsNode context bound (fun _ branch result => mayCut ∧ result = branch)
    fun branch result => mayCut ∧ result = branch
  | fuel + 1 => TreatsNode context bound (Converts context bound mayCut fuel)
    (Descends (Converts context bound mayCut fuel))

end Branch

end TypedJava
