import TypedJava.Text.Visible

/-! # Log formats

The layout in which a log is written, chosen by a word. -/

namespace TypedJava

/-- The layout of a log. -/
inductive LogLayout where
  | text | tree | json
  deriving DecidableEq, Repr

namespace LogLayout

/-- The text without the blanks at either end. -/
def trim (text : List Char) : List Char :=
  ((text.dropWhile Text.isBlank).reverse.dropWhile Text.isBlank).reverse

/-- Reads the word for a layout. Blanks around it and the case of its letters do not matter, and
any other word means plain text. No letter outside the basic Latin ones has one of the letters of
these words as its small form, so lowering the basic ones decides. -/
def ofText (value : String) : LogLayout :=
  let word := String.ofList ((trim value.toList).map Char.toLower)
  if word = "tree" then tree
  else if word = "json" then json
  else text

end LogLayout

end TypedJava
