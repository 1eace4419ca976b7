import TypedJava.Tree.Render
import Mathlib.Data.List.Forall2

/-! # Expressions shown by trees

The expressions made of identifiers, accesses to members, casts and operators, apart from the
annotations and the punctuation in their trees. An expression determines the text of every tree
that shows it, and two trees are equal exactly if they show the same expression. -/

namespace TypedJava

/-- An expression whose types are simple names. -/
inductive Expression where
  | identifier (name : String)
  /-- An access to a member without a target. -/
  | ownMember (types : List String) (name : String)
  | member (target : Expression) (types : List String) (name : String)
  | cast (type : String) (operand : Expression)
  | unary (operator : UnaryOperator) (operand : Expression)
  | binary (operator : BinaryOperator) (left right : Expression)
  | conditional (condition whenTrue whenFalse : Expression)
  deriving DecidableEq, Repr

namespace Tree

/-- A tree is a type written as a name. -/
inductive ShowsType : Tree → String → Prop where
  | simple (annotations : Annotations) (name : String) :
    ShowsType (node (.simpleType name) annotations [⟨.typeArgument, []⟩]) name

/-- A tree is a piece of punctuation. -/
inductive ShowsToken : Tree → String → Prop where
  | token (annotations : Annotations) (text : String) :
    ShowsToken (node (.token text) annotations []) text

/-- A tree is an expression, with any annotations. -/
inductive Shows : Tree → Expression → Prop where
  | identifier (annotations : Annotations) (name : String) :
    Shows (node (.identifier name) annotations []) (.identifier name)
  | ownMember (annotations : Annotations) {dot : Tree} {arguments : List Tree}
      {types : List String} (name : String)
      (isDot : dot.ShowsToken ".")
      (showTypes : List.Forall₂ ShowsType arguments types) :
    Shows (node (.memberReference name) annotations
      [⟨.target, []⟩, ⟨.dot, [dot]⟩, ⟨.typeArgument, arguments⟩]) (.ownMember types name)
  | member (annotations : Annotations) {target dot : Tree} {arguments : List Tree}
      {inner : Expression} {types : List String} (name : String)
      (showsTarget : Shows target inner)
      (isDot : dot.ShowsToken ".")
      (showTypes : List.Forall₂ ShowsType arguments types) :
    Shows (node (.memberReference name) annotations
      [⟨.target, [target]⟩, ⟨.dot, [dot]⟩, ⟨.typeArgument, arguments⟩]) (.member inner types name)
  | cast (annotations : Annotations) {opening type closing operand : Tree} {name : String}
      {inner : Expression}
      (opens : opening.ShowsToken "(")
      (showsType : type.ShowsType name)
      (closes : closing.ShowsToken ")")
      (showsOperand : Shows operand inner) :
    Shows (node .cast annotations [⟨.leftParenthesis, [opening]⟩, ⟨.type, [type]⟩,
      ⟨.rightParenthesis, [closing]⟩, ⟨.expression, [operand]⟩]) (.cast name inner)
  | unary (annotations : Annotations) (operator : UnaryOperator) {operand : Tree}
      {inner : Expression}
      (showsOperand : Shows operand inner) :
    Shows (node (.unary operator) annotations [⟨.expression, [operand]⟩]) (.unary operator inner)
  | binary (annotations : Annotations) (operator : BinaryOperator) {left right : Tree}
      {first second : Expression}
      (showsLeft : Shows left first)
      (showsRight : Shows right second) :
    Shows (node (.binary operator) annotations [⟨.left, [left]⟩, ⟨.right, [right]⟩])
      (.binary operator first second)
  | conditional (annotations : Annotations) {condition whenTrue whenFalse : Tree}
      {test first second : Expression}
      (showsCondition : Shows condition test)
      (showsTrue : Shows whenTrue first)
      (showsFalse : Shows whenFalse second) :
    Shows (node .conditional annotations [⟨.condition, [condition]⟩,
      ⟨.trueExpression, [whenTrue]⟩, ⟨.falseExpression, [whenFalse]⟩])
      (.conditional test first second)

end Tree

namespace Expression

/-- The tree of a type. -/
def typeTree (name : String) : Tree :=
  .node (.simpleType name) .empty [⟨.typeArgument, []⟩]

/-- The tree of a piece of punctuation. -/
def tokenTree (text : String) : Tree :=
  .node (.token text) .empty []

/-- The tree of an expression, without annotations. -/
def tree : Expression → Tree
  | identifier name => .node (.identifier name) .empty []
  | ownMember types name => .node (.memberReference name) .empty
      [⟨.target, []⟩, ⟨.dot, [tokenTree "."]⟩, ⟨.typeArgument, types.map typeTree⟩]
  | member target types name => .node (.memberReference name) .empty
      [⟨.target, [target.tree]⟩, ⟨.dot, [tokenTree "."]⟩, ⟨.typeArgument, types.map typeTree⟩]
  | cast type operand => .node .cast .empty
      [⟨.leftParenthesis, [tokenTree "("]⟩, ⟨.type, [typeTree type]⟩,
        ⟨.rightParenthesis, [tokenTree ")"]⟩, ⟨.expression, [operand.tree]⟩]
  | unary operator operand => .node (.unary operator) .empty [⟨.expression, [operand.tree]⟩]
  | binary operator left right => .node (.binary operator) .empty
      [⟨.left, [left.tree]⟩, ⟨.right, [right.tree]⟩]
  | conditional condition whenTrue whenFalse => .node .conditional .empty
      [⟨.condition, [condition.tree]⟩, ⟨.trueExpression, [whenTrue.tree]⟩,
        ⟨.falseExpression, [whenFalse.tree]⟩]

theorem forall₂_showsType_map (types : List String) :
    List.Forall₂ Tree.ShowsType (types.map typeTree) types := by
  induction types with
  | nil => exact .nil
  | cons type types inductionHypothesis => exact .cons (.simple _ _) inductionHypothesis

/-- Every expression has a tree that shows it. -/
theorem shows_tree (expression : Expression) : expression.tree.Shows expression := by
  induction expression with
  | identifier name => exact .identifier _ name
  | ownMember types name => exact .ownMember _ name (.token _ _) (forall₂_showsType_map types)
  | member target types name showsTarget =>
      exact .member _ name showsTarget (.token _ _) (forall₂_showsType_map types)
  | cast type operand showsOperand =>
      exact .cast _ (.token _ _) (.simple _ _) (.token _ _) showsOperand
  | unary operator operand showsOperand => exact .unary _ operator showsOperand
  | binary operator left right showsLeft showsRight =>
      exact .binary _ operator showsLeft showsRight
  | conditional condition whenTrue whenFalse showsCondition showsTrue showsFalse =>
      exact .conditional _ showsCondition showsTrue showsFalse

/-- A character that stands in a text besides names. -/
def isMark (character : Char) : Bool :=
  [' ', '(', ')', '.', ',', '<', '>', '+', '-', '!', '~', '*', '/', '%', '&', '|', '^', '=', '?',
    ':'].contains character

/-- A name that has no punctuation and no symbols in it, as every identifier of the language. -/
def isWord (name : String) : Bool :=
  !name.toList.isEmpty && name.toList.all (!isMark ·)

/-- An expression of words and of operators that are not wildcards. -/
def isConcrete : Expression → Bool
  | identifier name => isWord name
  | ownMember types name => types.all isWord && isWord name
  | member target types name => target.isConcrete && types.all isWord && isWord name
  | cast type operand => isWord type && operand.isConcrete
  | unary operator operand => operator != .any && operand.isConcrete
  | binary operator left right => operator != .any && left.isConcrete && right.isConcrete
  | conditional condition whenTrue whenFalse =>
    condition.isConcrete && whenTrue.isConcrete && whenFalse.isConcrete

/-- Type arguments in their brackets; nothing if there are none. -/
def typeList : List String → String
  | [] => ""
  | types => "<" ++ joinTexts ", " types ++ ">"

/-- The text of an expression. -/
def text : Expression → String
  | identifier name => name
  | ownMember types name => typeList types ++ name
  | member target types name => target.text ++ "." ++ typeList types ++ name
  | cast type operand => "(" ++ type ++ ") " ++ operand.text
  | unary operator operand =>
    if operator.isTrailing then operand.text ++ operator.symbol
    else operator.symbol ++ operand.text
  | binary operator left right => "(" ++ left.text ++ " " ++ operator.symbol ++ " " ++
      right.text ++ ")"
  | conditional condition whenTrue whenFalse =>
    "(" ++ condition.text ++ " ? " ++ whenTrue.text ++ " : " ++ whenFalse.text ++ ")"

end Expression

namespace Tree

theorem ShowsType.render_eq {tree : Tree} {name : String} (showsType : tree.ShowsType name) :
    tree.render = name := by
  cases showsType
  exact String.append_empty

theorem renderAll_eq_of_showTypes
    {trees : List Tree} {names : List String} (showTypes : List.Forall₂ ShowsType trees names) :
    renderAll trees = names := by
  induction showTypes with
  | nil =>
      rfl
  | cons showsType _ inductionHypothesis =>
      rw [renderAll, showsType.render_eq, inductionHypothesis]

/-- The text of a tree is that of the expression it shows. -/
theorem Shows.render_eq
    {tree : Tree} {expression : Expression} (isShown : tree.Shows expression) :
    tree.render = expression.text := by
  induction isShown with
  | identifier =>
      rfl
  | @ownMember annotations dot arguments types name isDot showTypes =>
      have shown : (node (.memberReference name) annotations
          [⟨.target, []⟩, ⟨.dot, [dot]⟩, ⟨.typeArgument, arguments⟩]).render =
          Expression.typeList (renderAll arguments) ++ name := rfl
      rw [shown, renderAll_eq_of_showTypes showTypes, Expression.text]
  | @member annotations target dot arguments inner types name _ isDot showTypes targetText =>
      have shown : (node (.memberReference name) annotations
          [⟨.target, [target]⟩, ⟨.dot, [dot]⟩, ⟨.typeArgument, arguments⟩]).render =
          target.render ++ "." ++ Expression.typeList (renderAll arguments) ++ name := rfl
      rw [shown, renderAll_eq_of_showTypes showTypes, targetText, Expression.text]
  | @cast annotations opening type closing operand name inner _ showsType _ _ operandText =>
      have shown : (node .cast annotations [⟨.leftParenthesis, [opening]⟩, ⟨.type, [type]⟩,
          ⟨.rightParenthesis, [closing]⟩, ⟨.expression, [operand]⟩]).render =
          "(" ++ type.render ++ ") " ++ operand.render := rfl
      rw [shown, showsType.render_eq, operandText, Expression.text]
  | @unary annotations operator operand inner _ operandText =>
      have shown : (node (.unary operator) annotations [⟨.expression, [operand]⟩]).render =
          if operator.isTrailing then operand.render ++ operator.symbol
          else operator.symbol ++ operand.render := rfl
      rw [shown, operandText, Expression.text]
  | @binary annotations operator left right first second _ _ leftText rightText =>
      have shown : (node (.binary operator) annotations
          [⟨.left, [left]⟩, ⟨.right, [right]⟩]).render =
          "(" ++ left.render ++ " " ++ operator.symbol ++ " " ++ right.render ++ ")" := rfl
      rw [shown, leftText, rightText, Expression.text]
  | @conditional annotations condition whenTrue whenFalse test first second _ _ _
      conditionText trueText falseText =>
      have shown : (node .conditional annotations [⟨.condition, [condition]⟩,
          ⟨.trueExpression, [whenTrue]⟩, ⟨.falseExpression, [whenFalse]⟩]).render =
          "(" ++ condition.render ++ " ? " ++ whenTrue.render ++ " : " ++
            whenFalse.render ++ ")" := rfl
      rw [shown, conditionText, trueText, falseText, Expression.text]

theorem ShowsToken.same_eq {first second : Tree} {text : String}
    (isFirst : first.ShowsToken text) (isSecond : second.ShowsToken text) :
    first.same second = true := by
  cases isFirst
  cases isSecond
  simp [same, sameSlots, Payload.agrees]

theorem ShowsType.same_iff {first second : Tree} {left right : String}
    (showsLeft : first.ShowsType left) (showsRight : second.ShowsType right) :
    first.same second = true ↔ left = right := by
  cases showsLeft
  cases showsRight
  simp [same, sameSlots, sameChildren, Payload.agrees]

theorem sameChildren_iff_of_showTypes
    {firsts seconds : List Tree} {lefts rights : List String}
    (showLefts : List.Forall₂ ShowsType firsts lefts)
    (showRights : List.Forall₂ ShowsType seconds rights) :
    sameChildren firsts seconds = true ↔ lefts = rights := by
  induction showLefts generalizing seconds rights with
  | nil =>
      cases showRights <;> simp [sameChildren]
  | cons showsLeft _ inductionHypothesis =>
      cases showRights with
      | nil =>
          simp [sameChildren]
      | cons showsRight showRights =>
          rw [sameChildren, Bool.and_eq_true, showsLeft.same_iff showsRight,
            inductionHypothesis showRights, List.cons.injEq]

/-- Two trees are equal exactly if they show the same expression. -/
theorem Shows.same_iff
    {first second : Tree} {left right : Expression} (showsLeft : first.Shows left)
    (showsRight : second.Shows right) (concrete : left.isConcrete = true) :
    first.same second = true ↔ left = right := by
  induction showsLeft generalizing second right with
  | identifier annotations name =>
      cases showsRight <;> simp [same, sameSlots, Payload.agrees, Payload.kind]
  | ownMember annotations name isDot showTypes =>
      cases showsRight with
      | ownMember _ _ isDot' showTypes' =>
        simp [same, sameSlots, sameChildren, Payload.agrees, isDot.same_eq isDot',
          sameChildren_iff_of_showTypes showTypes showTypes', and_comm]
      | _ =>
        simp [same, sameSlots, sameChildren, Payload.agrees, Payload.kind]
  | member annotations name showsTarget isDot showTypes targetHypothesis =>
      simp only [Expression.isConcrete, Bool.and_eq_true] at concrete
      cases showsRight with
      | member _ _ showsTarget' isDot' showTypes' =>
        simp only [same, sameSlots, sameChildren, Payload.agrees, isDot.same_eq isDot',
          Bool.and_true, Bool.and_eq_true, beq_iff_eq, Expression.member.injEq,
          targetHypothesis showsTarget' concrete.1.1,
          sameChildren_iff_of_showTypes showTypes showTypes']
        tauto
      | _ =>
        simp [same, sameSlots, sameChildren, Payload.agrees, Payload.kind]
  | cast annotations opens showsType closes showsOperand operandHypothesis =>
      simp only [Expression.isConcrete, Bool.and_eq_true] at concrete
      cases showsRight with
      | cast _ opens' showsType' closes' showsOperand' =>
        simp [same, sameSlots, sameChildren, Payload.agrees, Payload.kind, opens.same_eq opens',
          closes.same_eq closes', showsType.same_iff showsType',
          operandHypothesis showsOperand' concrete.2]
      | _ =>
        simp [same, sameSlots, sameChildren, Payload.agrees, Payload.kind]
  | unary annotations operator showsOperand operandHypothesis =>
      simp only [Expression.isConcrete, Bool.and_eq_true, bne_iff_ne] at concrete
      cases showsRight with
      | unary _ _ showsOperand' =>
        simp [same, sameSlots, sameChildren, Payload.agrees, concrete.1,
          operandHypothesis showsOperand' concrete.2]
      | _ =>
        simp [same, sameSlots, sameChildren, Payload.agrees, Payload.kind]
  | binary annotations operator showsFirst showsSecond firstHypothesis secondHypothesis =>
      simp only [Expression.isConcrete, Bool.and_eq_true, bne_iff_ne] at concrete
      cases showsRight with
      | binary _ _ showsFirst' showsSecond' =>
        simp [same, sameSlots, sameChildren, Payload.agrees, concrete.1.1,
          firstHypothesis showsFirst' concrete.1.2, secondHypothesis showsSecond' concrete.2]
      | _ =>
        simp [same, sameSlots, sameChildren, Payload.agrees, Payload.kind]
  | conditional annotations showsTest showsFirst showsSecond testHypothesis firstHypothesis
      secondHypothesis =>
      simp only [Expression.isConcrete, Bool.and_eq_true] at concrete
      cases showsRight with
      | conditional _ showsTest' showsFirst' showsSecond' =>
        simp [same, sameSlots, sameChildren, Payload.agrees, Payload.kind,
          testHypothesis showsTest' concrete.1.1, firstHypothesis showsFirst' concrete.1.2,
          secondHypothesis showsSecond' concrete.2]
      | _ =>
        simp [same, sameSlots, sameChildren, Payload.agrees, Payload.kind]

end Tree

end TypedJava
