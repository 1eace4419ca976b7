import TypedJava.Proofs.Rendering.Expression

/-! # How a text groups an expression

Parentheses stand around binary operators and conditionals only. An operator in front of its
operand, an operator behind it, a cast and an access to a member leave no trace of how they are
grouped, and neighbouring signs run together. So the text of an expression stands for all
expressions that regroup in the same way. -/

namespace TypedJava

/-- What may follow an operand without parentheses. -/
inductive Ending where
  | member (types : List String) (name : String)
  | increment
  | decrement

namespace Ending

/-- The expression that an ending makes of the one before it. -/
def after (expression : Expression) : Ending → Expression
  | member types name => .member expression types name
  | increment => .unary .postIncrement expression
  | decrement => .unary .postDecrement expression

/-- The text of an ending. -/
def text : Ending → String
  | member types name => "." ++ Expression.typeList types ++ name
  | increment => "++"
  | decrement => "--"

/-- An ending with words for names. -/
def isConcrete : Ending → Bool
  | member types name => types.all Expression.isWord && Expression.isWord name
  | increment | decrement => true

theorem text_after (expression : Expression) (ending : Ending) :
    (ending.after expression).text = expression.text ++ ending.text := by
  cases ending with
  | member types name =>
      rw [after, Expression.text, text]
      simp only [String.append_assoc]
  | increment => rfl
  | decrement => rfl

end Ending

namespace Expression

/-- An expression with an ending, which goes to the operand of the casts and of the operators in
front. -/
def endWith : Expression → Ending → Expression
  | cast type operand, ending => cast type (operand.endWith ending)
  | unary operator operand, ending =>
    if operator.isTrailing then ending.after (unary operator operand)
    else unary operator (operand.endWith ending)
  | expression, ending => ending.after expression

/-- A member without a target, which looks like an identifier if it has no type arguments. -/
def own (types : List String) (name : String) : Expression :=
  if types.isEmpty then identifier name else ownMember types name

/-- The expression as its text groups it: endings before the casts and the operators in front, and
signs one by one. -/
def regrouped : Expression → Expression
  | identifier name => identifier name
  | ownMember types name => own types name
  | member target types name => target.regrouped.endWith (.member types name)
  | cast type operand => cast type operand.regrouped
  | unary .preIncrement operand => unary .plus (unary .plus operand.regrouped)
  | unary .preDecrement operand => unary .minus (unary .minus operand.regrouped)
  | unary .postIncrement operand => operand.regrouped.endWith .increment
  | unary .postDecrement operand => operand.regrouped.endWith .decrement
  | unary operator operand => unary operator operand.regrouped
  | binary operator left right => binary operator left.regrouped right.regrouped
  | conditional condition whenTrue whenFalse =>
    conditional condition.regrouped whenTrue.regrouped whenFalse.regrouped

theorem text_endWith (expression : Expression) (ending : Ending) :
    (expression.endWith ending).text = expression.text ++ ending.text := by
  induction expression with
  | cast type operand inductionHypothesis =>
      rw [endWith, text, inductionHypothesis, text]
      simp only [String.append_assoc]
  | unary operator operand inductionHypothesis =>
      rw [endWith]
      split
      · exact ending.text_after _
      · rename_i notTrailing
        rw [text, text, inductionHypothesis, if_neg notTrailing, if_neg notTrailing,
          String.append_assoc]
  | _ => exact ending.text_after _

/-- Regrouping does not change the text. -/
theorem text_regrouped (expression : Expression) : expression.regrouped.text = expression.text := by
  induction expression with
  | identifier name => rfl
  | ownMember types name =>
      cases types with
      | nil => exact String.empty_append.symm
      | cons type types => rfl
  | member target types name inductionHypothesis =>
      rw [regrouped, text_endWith, inductionHypothesis]
      exact (Ending.text_after target (.member types name)).symm
  | cast type operand inductionHypothesis =>
      rw [regrouped, text, inductionHypothesis, text]
  | unary operator operand inductionHypothesis =>
      cases operator with
      | preIncrement =>
          simp only [regrouped, text, inductionHypothesis]
          exact String.append_assoc.symm
      | preDecrement =>
          simp only [regrouped, text, inductionHypothesis]
          exact String.append_assoc.symm
      | postIncrement =>
          rw [regrouped, text_endWith, inductionHypothesis]
          rfl
      | postDecrement =>
          rw [regrouped, text_endWith, inductionHypothesis]
          rfl
      | _ => simp only [regrouped, text, inductionHypothesis]
  | binary operator left right leftHypothesis rightHypothesis =>
      rw [regrouped, text, leftHypothesis, rightHypothesis, text]
  | conditional condition whenTrue whenFalse conditionHypothesis trueHypothesis falseHypothesis =>
      rw [regrouped, text, conditionHypothesis, trueHypothesis, falseHypothesis, text]

end Expression

end TypedJava
