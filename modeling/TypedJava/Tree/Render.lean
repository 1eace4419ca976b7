import TypedJava.Tree

/-! # Trees as source text

A compact text of a tree, close to source code. Every compound operator expression stands in
parentheses, so that the text shows the shape of the tree without rules of precedence. -/

namespace TypedJava

/-- Texts with a separator between them. -/
def joinTexts (separator : String) : List String → String
  | [] => ""
  | [text] => text
  | text :: next :: texts => text ++ separator ++ joinTexts separator (next :: texts)

/-- A text several times over. -/
def repeatText (text : String) : Nat → String
  | 0 => ""
  | count + 1 => text ++ repeatText text count

/-- The texts of the children of a node, slot by slot. -/
abbrev SlotTexts := List (Slot String)

namespace SlotTexts

/-- The texts of the children in a role. -/
def texts (slots : SlotTexts) (role : Role) : List String :=
  Slot.childrenIn slots role

/-- The text of the first child in a role, if there is one. -/
def text? (slots : SlotTexts) (role : Role) : Option String :=
  (slots.texts role).head?

/-- The text of the first child in a role, empty if there is none. -/
def text (slots : SlotTexts) (role : Role) : String :=
  (slots.text? role).getD ""

/-- The arguments of a call in their parentheses. -/
def callArguments (slots : SlotTexts) : String :=
  "(" ++ joinTexts ", " (slots.texts .argument) ++ ")"

/-- Type arguments in their brackets; nothing if there are none. -/
def typeArguments (slots : SlotTexts) : String :=
  match slots.texts .typeArgument with
  | [] => ""
  | texts => "<" ++ joinTexts ", " texts ++ ">"

end SlotTexts

/-- The text of a node, given the texts of its children. Tokens among the children do not show. -/
def Payload.render (payload : Payload) (slots : SlotTexts) : String :=
  match payload with
  | .literal value => value.spelling
  | .nullReference => "null"
  | .identifier name => name
  | .this => "this"
  | .memberReference name =>
    match slots.text? .target with
    | none => slots.typeArguments ++ name
    | some target => target ++ "." ++ slots.typeArguments ++ name
  | .invocation => slots.text .target ++ slots.callArguments
  | .objectCreation => "new " ++ slots.text .type ++ slots.callArguments
  | .cast => "(" ++ slots.text .type ++ ") " ++ slots.text .expression
  | .assignment operator => slots.text .left ++ " " ++ operator.symbol ++ " " ++ slots.text .right
  | .conditional =>
    "(" ++ slots.text .condition ++ " ? " ++ slots.text .trueExpression ++ " : " ++
      slots.text .falseExpression ++ ")"
  | .binary operator =>
    "(" ++ slots.text .left ++ " " ++ operator.symbol ++ " " ++ slots.text .right ++ ")"
  | .unary operator =>
    if operator.isTrailing then slots.text .expression ++ operator.symbol
    else operator.symbol ++ slots.text .expression
  | .simpleType name => name ++ slots.typeArguments
  | .wildcardType .unbounded => "?"
  | .wildcardType .upper => "? extends " ++ slots.text .type
  | .wildcardType .lower => "? super " ++ slots.text .type
  | .composedType rank => slots.text .type ++ repeatText "[]" rank
  | .block =>
    match slots.texts .statement with
    | [] => "\x7b\x7d"
    | texts => "\x7b " ++ joinTexts " " texts ++ " \x7d"
  | .expressionStatement => slots.text .expression ++ ";"
  | .returnStatement =>
    match slots.text? .expression with
    | none => "return;"
    | some expression => "return " ++ expression ++ ";"
  | .variableDeclaration name =>
    slots.text .type ++ " " ++ name ++
      (match slots.text? .initializer with
      | none => ""
      | some value => " = " ++ value) ++ ";"
  | .token text => text
  | .placeholder _ _ => "<pattern>"

namespace Tree

mutual

/-- The text of a tree. -/
def render : Tree → String
  | node payload _ slots => payload.render (renderSlots slots)

/-- The texts of the trees in slots. -/
def renderSlots : List (Slot Tree) → SlotTexts
  | [] => []
  | ⟨role, children⟩ :: slots => ⟨role, renderAll children⟩ :: renderSlots slots

/-- The texts of several trees. -/
def renderAll : List Tree → List String
  | [] => []
  | tree :: trees => render tree :: renderAll trees

end

/-- The text of a tree that may be absent. -/
def renderRoot : Option Tree → String
  | none => ""
  | some tree => render tree

end Tree

end TypedJava
