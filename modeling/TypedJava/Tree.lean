import TypedJava.Literal
import TypedJava.Member
import TypedJava.NodeKind
import TypedJava.Operator

/-! # Trees and patterns

A tree is a node with its payload, its annotations and the trees below it, slot by slot. A pattern
is a constraint on one node or on a run of siblings. The two are defined together, because a
pattern may be a concrete tree and a node of a tree may be a placeholder for a pattern. -/

namespace TypedJava

/-- The children in one role, in order. -/
structure Slot (α : Type) where
  role : Role
  children : List α
  deriving Repr

/-- The children in a role, among the slots of a node. -/
def Slot.childrenIn {α : Type} (slots : List (Slot α)) (role : Role) : List α :=
  ((slots.find? (·.role == role)).map (·.children)).getD []

/-- What earlier stages have found out about a node. -/
structure Annotations where
  /-- The field or method that the node refers to. -/
  member : Option Member
  /-- The type that the node denotes or evaluates to. -/
  type : Option Ty
  deriving Repr

/-- The annotations of a new node. -/
def Annotations.empty : Annotations := ⟨none, none⟩

mutual

/-- What a node of each kind holds besides its children. The number of a placeholder tells
placeholders apart: only copies of one node share it. -/
inductive Payload where
  | literal (value : Literal)
  | nullReference
  | identifier (name : String)
  | this
  | memberReference (name : String)
  | invocation
  | objectCreation
  | cast
  | assignment (operator : AssignmentOperator)
  | conditional
  | binary (operator : BinaryOperator)
  | unary (operator : UnaryOperator)
  | simpleType (name : String)
  | wildcardType (form : WildcardForm)
  | composedType (rank : Nat)
  | block
  | expressionStatement
  | returnStatement
  | variableDeclaration (name : String)
  | token (text : String)
  | placeholder (number : Nat) (pattern : Pattern)

/-- A constraint on a node, or on a run of siblings. A group is a name under which what was matched
is captured. -/
inductive Pattern where
  /-- Any node that is there. -/
  | any (group : Option String)
  /-- Any node, there or not. -/
  | anyOrNull (group : Option String)
  /-- What the inner pattern matches, captured. -/
  | named (group : String) (inner : Pattern)
  /-- The first alternative that matches. -/
  | choice (alternatives : List Pattern)
  /-- A run of siblings that match the inner pattern, from the least to the most number; `none` sets
  no upper limit. -/
  | repeated (inner : Pattern) (least : Nat) (most : Option Nat)
  /-- A node equal to the last one captured in the group. -/
  | backreference (group : String)
  /-- Any node of a kind. -/
  | typed (kind : NodeKind) (group : Option String)
  /-- A concrete tree; the absent tree matches the absent node. -/
  | subtree (tree : Option Tree)

/-- A node with everything below it. -/
inductive Tree where
  | node (payload : Payload) (annotations : Annotations) (slots : List (Slot Tree))

end

namespace Payload

/-- The kind of a node with the payload. -/
def kind : Payload → NodeKind
  | literal _ => .primitive
  | nullReference => .nullReference
  | identifier _ => .identifier
  | this => .this
  | memberReference _ => .memberReference
  | invocation => .invocation
  | objectCreation => .objectCreation
  | cast => .cast
  | assignment _ => .assignment
  | conditional => .conditional
  | binary _ => .binaryOperator
  | unary _ => .unaryOperator
  | simpleType _ => .simpleType
  | wildcardType _ => .wildcardType
  | composedType _ => .composedType
  | block => .block
  | expressionStatement => .expressionStatement
  | returnStatement => .returnStatement
  | variableDeclaration _ => .variableDeclaration
  | token _ => .token
  | placeholder _ _ => .patternPlaceholder

/-- Does a payload on the side of the pattern agree with one on the side of the target? The
wildcard of an operator family agrees with each of its operators. -/
def agrees : Payload → Payload → Bool
  | literal pattern, literal target => pattern.sameValue target
  | identifier pattern, identifier target => pattern == target
  | memberReference pattern, memberReference target => pattern == target
  | assignment pattern, assignment target => pattern == .any || pattern == target
  | binary pattern, binary target => pattern == .any || pattern == target
  | unary pattern, unary target => pattern == .any || pattern == target
  | simpleType pattern, simpleType target => pattern == target
  | wildcardType pattern, wildcardType target => pattern == target
  | composedType pattern, composedType target => pattern == target
  | variableDeclaration pattern, variableDeclaration target => pattern == target
  | token pattern, token target => pattern == target
  | placeholder pattern _, placeholder target _ => pattern == target
  | pattern, target => pattern.kind == target.kind

/-- The value of a literal. -/
def literal? : Payload → Option Literal
  | literal value => some value
  | _ => none

/-- The name of an identifier, a member, a type or a variable, or the text of a token. -/
def name? : Payload → Option String
  | identifier name | memberReference name | simpleType name | variableDeclaration name => some name
  | token text => some text
  | _ => none

/-- The operator of an assignment. -/
def assignmentOperator? : Payload → Option AssignmentOperator
  | assignment operator => some operator
  | _ => none

/-- The operator of a binary expression. -/
def binaryOperator? : Payload → Option BinaryOperator
  | binary operator => some operator
  | _ => none

/-- The operator of a unary expression. -/
def unaryOperator? : Payload → Option UnaryOperator
  | unary operator => some operator
  | _ => none

/-- The form of a wildcard type. -/
def wildcardForm? : Payload → Option WildcardForm
  | wildcardType form => some form
  | _ => none

/-- The number of dimensions of a composed type. -/
def rank? : Payload → Option Nat
  | composedType rank => some rank
  | _ => none

/-- The pattern of a placeholder. -/
def pattern? : Payload → Option Pattern
  | placeholder _ pattern => some pattern
  | _ => none

end Payload

namespace Tree

/-- The payload of the node at the top. -/
def payload : Tree → Payload
  | node payload _ _ => payload

/-- The annotations of the node at the top. -/
def annotations : Tree → Annotations
  | node _ annotations _ => annotations

/-- The slots of the node at the top. -/
def slots : Tree → List (Slot Tree)
  | node _ _ slots => slots

/-- The kind of the node at the top. -/
def kind (tree : Tree) : NodeKind :=
  tree.payload.kind

mutual

/-- Equality of trees up to annotations, with agreeing payloads at every node. -/
def same : Tree → Tree → Bool
  | node leftPayload _ leftSlots, node rightPayload _ rightSlots =>
    leftPayload.agrees rightPayload && sameSlots leftSlots rightSlots

/-- Equality slot by slot, as far as both sides have slots. -/
def sameSlots : List (Slot Tree) → List (Slot Tree) → Bool
  | ⟨_, left⟩ :: lefts, ⟨_, right⟩ :: rights => sameChildren left right && sameSlots lefts rights
  | _, _ => true

/-- Equality child by child. -/
def sameChildren : List Tree → List Tree → Bool
  | [], [] => true
  | left :: lefts, right :: rights => same left right && sameChildren lefts rights
  | _, _ => false

end

end Tree

end TypedJava
