import TypedJava.Tree.Render

/-! # Outlines

A plain description of a tree for reports: the kind, the role and the text of each node, with
tokens left out among the children. -/

namespace TypedJava

/-- The description of a node and of what is below it. -/
inductive Outline where
  | node (kind : NodeKind) (role : Option Role) (text : Option String) (children : List Outline)

/-- What a node says about itself in one text. -/
def Payload.text? : Payload → Option String
  | literal value => some value.spelling
  | identifier name | memberReference name | simpleType name | variableDeclaration name => some name
  | token text => some text
  | assignment operator => some operator.symbol
  | binary operator => some operator.symbol
  | unary operator => some operator.symbol
  | wildcardType form => some form.name
  | composedType rank => some (repeatText "[]" rank)
  | _ => none

/-- A token. -/
def Tree.isToken (tree : Tree) : Bool :=
  tree.kind == .token

namespace Outline

mutual

/-- The outline of a tree that stands in a role. -/
def ofTree (role : Option Role) : Tree → Outline
  | .node payload _ slots => node payload.kind role payload.text? (ofSlots slots)

/-- The outlines of the trees in slots, tokens left out. -/
def ofSlots : List (Slot Tree) → List Outline
  | [] => []
  | ⟨role, children⟩ :: slots => ofChildren role children ++ ofSlots slots

/-- The outlines of the trees in a role, tokens left out. -/
def ofChildren (role : Role) : List Tree → List Outline
  | [] => []
  | tree :: trees =>
    if tree.isToken then ofChildren role trees
    else ofTree (some role) tree :: ofChildren role trees

end

/-- The outline of what is not there. -/
def absent : Outline := node .null none none []

/-- The outline of a tree that may be absent. -/
def ofRoot (role : Option Role) : Option Tree → Outline
  | none => absent
  | some tree => ofTree role tree

end Outline

namespace Tree

mutual

/-- The number of casts met when going down through blocks, statements of one expression and
casts. -/
def castCount : Tree → Nat
  | node .block _ slots => castCountInSlots slots
  | node .expressionStatement _ slots => castCountInSlots slots
  | node .cast _ slots => castCountInSlots slots + 1
  | node _ _ _ => 0

/-- The number of casts met in slots. -/
def castCountInSlots : List (Slot Tree) → Nat
  | [] => 0
  | ⟨_, children⟩ :: slots => castCountInAll children + castCountInSlots slots

/-- The number of casts met in several trees. -/
def castCountInAll : List Tree → Nat
  | [] => 0
  | tree :: trees => castCount tree + castCountInAll trees

end

end Tree

end TypedJava
