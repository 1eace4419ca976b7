import TypedJava.Proofs.Rendering.Grouping

/-! # Reading expressions back

The text of an expression can be read back, and the reader finds the expression as the text groups
it. So two trees of expressions have the same text exactly if their expressions regroup in the same
way, which is less than being equal. -/

namespace TypedJava

namespace Expression

/-! ### The reader -/

/-- Reads a name, up to the next mark. -/
def readName (text : List Char) : Option (String × List Char) :=
  match text.takeWhile (!isMark ·) with
  | [] => none
  | name => some (String.ofList name, text.dropWhile (!isMark ·))

/-- Reads names with commas, up to the closing bracket. -/
def readNames : Nat → List Char → Option (List String × List Char)
  | 0, _ => none
  | fuel + 1, text => do
    let (name, rest) ← readName text
    match rest with
    | ',' :: ' ' :: rest =>
      let (names, rest) ← readNames fuel rest
      return (name :: names, rest)
    | '>' :: rest => return ([name], rest)
    | _ => none

/-- Reads a name with type arguments before it. -/
def readMember (fuel : Nat) : List Char → Option (List String × String × List Char)
  | '<' :: text => do
    let (types, rest) ← readNames fuel text
    let (name, rest) ← readName rest
    return (types, name, rest)
  | text => do
    let (name, rest) ← readName text
    return ([], name, rest)

/-- Reads the endings of an expression. -/
def readEndings : Nat → Expression → List Char → Option (Expression × List Char)
  | 0, _, _ => none
  | fuel + 1, expression, '.' :: text => do
    let (types, name, rest) ← readMember fuel text
    readEndings fuel (expression.endWith (.member types name)) rest
  | fuel + 1, expression, '+' :: '+' :: text =>
    readEndings fuel (expression.endWith .increment) text
  | fuel + 1, expression, '-' :: '-' :: text =>
    readEndings fuel (expression.endWith .decrement) text
  | _ + 1, expression, text => some (expression, text)

/-- Reads the type of a cast after the opening parenthesis. -/
def readCastType (text : List Char) : Option (String × List Char) :=
  match readName text with
  | some (type, ')' :: ' ' :: rest) => some (type, rest)
  | _ => none

/-- The binary operators that are not the wildcard. -/
def binaryOperators : List BinaryOperator :=
  [.bitwiseAnd, .bitwiseOr, .logicalAnd, .logicalOr, .exclusiveOr, .greaterThan,
    .greaterThanOrEqual, .equality, .inequality, .lessThan, .lessThanOrEqual, .add, .subtract,
    .multiply, .divide, .modulus, .shiftLeft, .shiftRight, .unsignedShiftRight]

/-- Reads a symbol with blanks around it. -/
def readSymbol : List Char → Option (List Char × List Char)
  | ' ' :: text =>
    match text.dropWhile (· != ' ') with
    | ' ' :: rest => some (text.takeWhile (· != ' '), rest)
    | _ => none
  | _ => none

/-- Reads the colon between the arms of a conditional. -/
def readColon : List Char → Option (List Char)
  | ' ' :: ':' :: ' ' :: rest => some rest
  | _ => none

/-- Reads the closing parenthesis. -/
def readClosing : List Char → Option (List Char)
  | ')' :: rest => some rest
  | _ => none

/-- Reads what stands in parentheses after the opening one. -/
def readCompound (readOperand : List Char → Option (Expression × List Char)) (text : List Char) :
    Option (Expression × List Char) := do
  let (first, rest) ← readOperand text
  let (symbol, rest) ← readSymbol rest
  let (second, rest) ← readOperand rest
  if symbol = ['?'] then
    let rest ← readColon rest
    let (third, rest) ← readOperand rest
    let rest ← readClosing rest
    return (conditional first second third, rest)
  else
    let operator ← binaryOperators.find? (·.symbol.toList = symbol)
    let rest ← readClosing rest
    return (binary operator first second, rest)

/-- The operator that a sign in front of an operand stands for. -/
def signOperator? : Char → Option UnaryOperator
  | '!' => some .not
  | '~' => some .bitNot
  | '-' => some .minus
  | '+' => some .plus
  | _ => none

/-- Reads an expression. Endings that follow the operand of a cast or of a sign are read with the
operand. -/
def readWithin : Nat → List Char → Option (Expression × List Char)
  | 0, _ => none
  | fuel + 1, '(' :: text =>
    match readCastType text with
    | some (type, rest) =>
      (readWithin fuel rest).map fun (operand, rest) => (cast type operand, rest)
    | none => do
      let (expression, rest) ← readCompound (readWithin fuel) text
      readEndings (fuel + 1) expression rest
  | fuel + 1, text =>
    match text.head?.bind signOperator? with
    | some operator =>
      (readWithin fuel text.tail).map fun (operand, rest) => (unary operator operand, rest)
    | none => do
      let (types, name, rest) ← readMember (fuel + 1) text
      readEndings (fuel + 1) (own types name) rest

/-- Reads a whole text as an expression. -/
def read? (text : String) : Option Expression :=
  match readWithin (text.length + 1) text.toList with
  | some (expression, []) => some expression
  | _ => none

/-- No further character of a name follows. -/
def endsWord : List Char → Bool
  | [] => true
  | character :: _ => isMark character

/-- The operand is over, with all of its endings. -/
def endsOperand : List Char → Bool
  | [] => true
  | character :: _ => character == ' ' || character == ')'

theorem readName_append
    {name : String} {rest : List Char} (word : isWord name = true) (ends : endsWord rest = true) :
    readName (name.toList ++ rest) = some (name, rest) := by
  rw [isWord, Bool.and_eq_true] at word
  have letters : ∀ character ∈ name.toList, (!isMark character) = true :=
    List.all_eq_true.mp word.2
  have stops : rest.takeWhile (!isMark ·) = [] ∧ rest.dropWhile (!isMark ·) = rest := by
    cases rest with
    | nil => exact ⟨rfl, rfl⟩
    | cons character rest =>
        have mark : isMark character = true := ends
        simp [mark]
  have nonempty : name.toList ≠ [] := by simpa using word.1
  rw [readName, List.takeWhile_append_of_pos letters, List.dropWhile_append_of_pos letters,
    stops.1, stops.2, List.append_nil]
  split
  · contradiction
  · rw [String.ofList_toList]

theorem readName_of_isMark {character : Char} {text : List Char}
    (mark : isMark character = true) :
    readName (character :: text) = none := by
  simp [readName, mark]

theorem readNames_joinTexts
    {names : List String} {fuel : Nat} {rest : List Char} (words : names.all isWord = true)
    (nonempty : names ≠ []) (enough : (joinTexts ", " names).toList.length < fuel) :
    readNames fuel ((joinTexts ", " names).toList ++ '>' :: rest) = some (names, rest) := by
  induction names generalizing fuel with
  | nil => contradiction
  | cons name names inductionHypothesis =>
      rw [List.all_cons, Bool.and_eq_true] at words
      cases fuel with
      | zero => omega
      | succ fuel =>
          cases names with
          | nil =>
              rw [joinTexts, readNames, readName_append words.1 rfl]
              rfl
          | cons next names =>
              have joined : (joinTexts ", " (name :: next :: names)).toList =
                  name.toList ++ ',' :: ' ' :: (joinTexts ", " (next :: names)).toList := by
                simp [joinTexts]
              rw [joined] at enough ⊢
              rw [List.append_assoc, readNames, readName_append words.1 rfl]
              simp only [List.length_append, List.length_cons] at enough
              have others : readNames fuel
                  ((joinTexts ", " (next :: names)).toList ++ '>' :: rest) =
                  some (next :: names, rest) :=
                inductionHypothesis words.2 (by simp) (by omega)
              simp [others]

theorem readMember_append
    {types : List String} {name : String} {rest : List Char}
    (words : types.all isWord = true) (word : isWord name = true)
    (ends : endsWord rest = true) (fuel : Nat)
    (enough : (typeList types).toList.length < fuel) :
    readMember fuel ((typeList types).toList ++ (name.toList ++ rest)) =
      some (types, name, rest) := by
  cases types with
  | nil =>
      have plain : (typeList []).toList = [] := rfl
      have found := readName_append word ends
      rw [plain, List.nil_append, readMember, found]
      · rfl
      · intro text opens
        rw [opens, readName_of_isMark (by decide)] at found
        cases found
  | cons type types =>
      have listed : (typeList (type :: types)).toList =
          '<' :: ((joinTexts ", " (type :: types)).toList ++ ['>']) := by
        simp [typeList]
      rw [listed] at enough ⊢
      simp only [List.length_append, List.length_cons] at enough
      rw [List.cons_append, List.append_assoc, List.singleton_append, readMember,
        readNames_joinTexts words (by simp) (by omega)]
      simp [readName_append word ends]

/-- The text of several endings. -/
def endingsText (endings : List Ending) : List Char :=
  endings.flatMap (·.text.toList)

theorem endsWord_of_endsOperand {rest : List Char} (ends : endsOperand rest = true) :
    endsWord rest = true := by
  cases rest with
  | nil => rfl
  | cons character rest =>
      rcases Bool.or_eq_true_iff.mp ends with isSpace | isClosing
      · rw [endsWord, eq_of_beq isSpace]
        decide
      · rw [endsWord, eq_of_beq isClosing]
        decide

theorem endsWord_endings {rest : List Char} (endings : List Ending)
    (ends : endsOperand rest = true) :
    endsWord (endingsText endings ++ rest) = true := by
  cases endings with
  | nil => exact endsWord_of_endsOperand ends
  | cons ending endings =>
      cases ending with
      | member types name =>
          have dot : isMark '.' = true := by decide
          simpa [endingsText, Ending.text, endsWord] using dot
      | increment => rfl
      | decrement => rfl

/-- The reader finds all the endings. -/
theorem readEndings_append
    {endings : List Ending} {expression : Expression} {fuel : Nat} {rest : List Char}
    (concrete : endings.all Ending.isConcrete = true) (ends : endsOperand rest = true)
    (enough : (endingsText endings).length < fuel) :
    readEndings fuel expression (endingsText endings ++ rest) =
      some (endings.foldl endWith expression, rest) := by
  induction endings generalizing expression fuel with
  | nil =>
      cases fuel with
      | zero => omega
      | succ fuel =>
          cases rest with
          | nil => rfl
          | cons character rest =>
              rcases Bool.or_eq_true_iff.mp ends with isSpace | isClosing
              · cases eq_of_beq isSpace
                rfl
              · cases eq_of_beq isClosing
                rfl
  | cons ending endings inductionHypothesis =>
      rw [List.all_cons, Bool.and_eq_true] at concrete
      have split : endingsText (ending :: endings) = ending.text.toList ++ endingsText endings :=
        rfl
      rw [split, List.length_append] at enough
      rw [split, List.append_assoc, List.foldl_cons]
      cases fuel with
      | zero => omega
      | succ fuel =>
          cases ending with
          | member types name =>
              have words := Bool.and_eq_true_iff.mp concrete.1
              have dotted : (Ending.member types name).text.toList =
                  '.' :: ((typeList types).toList ++ name.toList) := by
                simp [Ending.text]
              rw [dotted] at enough ⊢
              simp only [List.length_append, List.length_cons] at enough
              rw [List.cons_append, List.append_assoc, readEndings,
                readMember_append words.1 words.2 (endsWord_endings endings ends) fuel (by omega)]
              exact inductionHypothesis concrete.2 (by omega)
          | increment =>
              have shorter : (endingsText endings).length < fuel := by
                have twoSigns : Ending.increment.text.toList.length = 2 := rfl
                omega
              exact inductionHypothesis concrete.2 shorter
          | decrement =>
              have shorter : (endingsText endings).length < fuel := by
                have twoSigns : Ending.decrement.text.toList.length = 2 := rfl
                omega
              exact inductionHypothesis concrete.2 shorter

theorem exists_mark_of_symbol (operator : UnaryOperator) :
    ∃ mark marks, operator.symbol.toList = mark :: marks ∧ isMark mark = true ∧ mark ≠ ')' := by
  cases operator <;> exact ⟨_, _, rfl, by decide, by decide⟩

theorem exists_letter_of_isWord {name : String} (word : isWord name = true) :
    ∃ letter letters, name.toList = letter :: letters ∧ isMark letter = false := by
  rw [isWord, Bool.and_eq_true] at word
  cases spelled : name.toList with
  | nil => simp [spelled] at word
  | cons letter letters =>
      have all := word.2
      rw [spelled, List.all_cons, Bool.and_eq_true] at all
      exact ⟨letter, letters, rfl, by simpa using all.1⟩

theorem readCastType_of_isMark {mark : Char} {text : List Char} (marked : isMark mark = true) :
    readCastType (mark :: text) = none := by
  rw [readCastType, readName_of_isMark marked]

theorem readCastType_of_isWord
    {name : String} {mark : Char} {rest : List Char} (word : isWord name = true)
    (marked : isMark mark = true) (goesOn : mark ≠ ')') :
    readCastType (name.toList ++ mark :: rest) = none := by
  have ends : endsWord (mark :: rest) = true := marked
  rw [readCastType, readName_append word ends]
  split
  · rename_i found
    cases found
    contradiction
  · rfl

/-- An expression before a blank, a dot or a sign is not the type of a cast. -/
theorem readCastType_text
    {expression : Expression} {mark : Char} {rest : List Char}
    (concrete : expression.isConcrete = true) (marked : isMark mark = true)
    (goesOn : mark ≠ ')') :
    readCastType (expression.text.toList ++ mark :: rest) = none := by
  have parenthesis : isMark '(' = true := by decide
  induction expression generalizing mark rest with
  | identifier name => exact readCastType_of_isWord concrete marked goesOn
  | ownMember types name =>
      have words := Bool.and_eq_true_iff.mp concrete
      cases types with
      | nil =>
          rw [text, typeList, String.empty_append]
          exact readCastType_of_isWord words.2 marked goesOn
      | cons type types =>
          have bracket : isMark '<' = true := by decide
          simp [text, typeList, readCastType_of_isMark bracket]
  | member target types name targetHypothesis =>
      simp only [isConcrete, Bool.and_eq_true] at concrete
      have dot : isMark '.' = true := by decide
      simp [text, targetHypothesis concrete.1.1 dot (by decide)]
  | unary operator operand operandHypothesis =>
      have operandConcrete := (Bool.and_eq_true_iff.mp concrete).2
      obtain ⟨first, others, symbol, isFirst, notClosing⟩ := exists_mark_of_symbol operator
      rw [text]
      split
      · rw [String.toList_append, symbol, List.append_assoc]
        exact operandHypothesis operandConcrete isFirst notClosing
      · rw [String.toList_append, symbol]
        exact readCastType_of_isMark isFirst
  | cast type operand => simp [text, readCastType_of_isMark parenthesis]
  | binary operator left right => simp [text, readCastType_of_isMark parenthesis]
  | conditional condition whenTrue whenFalse => simp [text, readCastType_of_isMark parenthesis]

theorem readWithin_of_starts {fuel : Nat} {first : Char} {text : List Char}
    (starts : first = '<' ∨ isMark first = false) :
    readWithin (fuel + 1) (first :: text) =
      (readMember (fuel + 1) (first :: text)).bind fun (types, name, rest) =>
        readEndings (fuel + 1) (own types name) rest := by
  have noMark : ∀ mark, isMark mark = true → mark ≠ '<' → first ≠ mark := by
    rintro mark marked other rfl
    simp [marked, other] at starts
  have unsigned : signOperator? first = none := by
    unfold signOperator?
    split <;> first | rfl | exact absurd rfl (noMark _ (by decide) (by decide))
  rw [readWithin]
  · simp only [List.head?_cons, Option.bind_some, unsigned]
    rfl
  · rintro _ ⟨⟩
    exact noMark _ (by decide) (by decide) rfl

theorem readSymbol_append
    {symbol rest : List Char} (solid : symbol.all (· != ' ') = true) :
    readSymbol (' ' :: (symbol ++ ' ' :: rest)) = some (symbol, rest) := by
  have noBlank := List.all_eq_true.mp solid
  simp [readSymbol, List.takeWhile_append_of_pos noBlank, List.dropWhile_append_of_pos noBlank]

theorem foldl_endWith_cast (type : String) (operand : Expression) (endings : List Ending) :
    endings.foldl endWith (cast type operand) = cast type (endings.foldl endWith operand) := by
  induction endings generalizing operand with
  | nil => rfl
  | cons ending endings inductionHypothesis =>
      exact inductionHypothesis (operand.endWith ending)

theorem foldl_endWith_unary
    {operator : UnaryOperator} (leads : operator.isTrailing = false) (operand : Expression)
    (endings : List Ending) :
    endings.foldl endWith (unary operator operand) =
      unary operator (endings.foldl endWith operand) := by
  induction endings generalizing operand with
  | nil => rfl
  | cons ending endings inductionHypothesis =>
      rw [List.foldl_cons, endWith, if_neg (by simp [leads]), inductionHypothesis,
        List.foldl_cons]

/-! ### Reading what was written -/

-- What is read depends on the endings that follow, because those go to the innermost operand. So the
-- statement that carries the induction is about the text with any endings after it.
/-- The reader takes a text for an expression, whatever endings follow. -/
def ReadAs (text : List Char) (expression : Expression) : Prop :=
  ∀ endings fuel rest, endings.all Ending.isConcrete = true → endsOperand rest = true →
    (text ++ endingsText endings).length < fuel →
      readWithin fuel (text ++ (endingsText endings ++ rest)) =
        some (endings.foldl endWith expression, rest)

namespace ReadAs

/-- Without endings, the text is read up to what follows. -/
theorem readWithin_eq
    {text : List Char} {expression : Expression} (read : ReadAs text expression) (fuel : Nat)
    (rest : List Char) (ends : endsOperand rest = true) (enough : text.length < fuel) :
    readWithin fuel (text ++ rest) = some (expression, rest) :=
  read [] fuel rest List.all_nil ends (by simpa [endingsText] using enough)

/-- An ending belongs to the text before it. -/
theorem withEnding
    {text : List Char} {expression : Expression} (read : ReadAs text expression)
    {ending : Ending} (concrete : ending.isConcrete = true) :
    ReadAs (text ++ ending.text.toList) (expression.endWith ending) := by
  intro endings fuel rest known ends enough
  have joined : ending.text.toList ++ endingsText endings = endingsText (ending :: endings) := rfl
  have knownAll : (ending :: endings).all Ending.isConcrete = true := by
    rw [List.all_cons, concrete, known]
    rfl
  rw [List.append_assoc, joined] at enough
  rw [List.append_assoc, ← List.append_assoc ending.text.toList, joined]
  exact read (ending :: endings) fuel rest knownAll ends enough

/-- A name with type arguments before it is an access without a target. -/
theorem access
    {types : List String} {name : String} (words : types.all isWord = true)
    (word : isWord name = true) :
    ReadAs ((typeList types).toList ++ name.toList) (own types name) := by
  intro endings fuel rest known ends enough
  have ended := endsWord_endings endings ends
  simp only [List.length_append] at enough
  cases fuel with
  | zero => omega
  | succ fuel =>
      have found := readMember_append words word ended (fuel + 1) (by omega)
      obtain ⟨first, others, spelled, starts⟩ : ∃ first others,
          (typeList types).toList ++ (name.toList ++ (endingsText endings ++ rest)) =
            first :: others ∧ (first = '<' ∨ isMark first = false) := by
        cases types with
        | nil =>
            obtain ⟨letter, letters, spelled, noMark⟩ := exists_letter_of_isWord word
            exact ⟨letter, letters ++ (endingsText endings ++ rest), by simp [typeList, spelled],
              Or.inr noMark⟩
        | cons type types =>
            exact ⟨'<', (joinTexts ", " (type :: types)).toList ++
              '>' :: (name.toList ++ (endingsText endings ++ rest)), by simp [typeList],
              Or.inl rfl⟩
      rw [List.append_assoc, spelled]
      rw [spelled] at found
      rw [readWithin_of_starts starts, found]
      exact readEndings_append known ends (by omega)

/-- A sign stands for an operator in front of what follows. -/
theorem afterSign
    {text : List Char} {operand : Expression} (read : ReadAs text operand) {sign : Char}
    {operator : UnaryOperator} (isSign : signOperator? sign = some operator) :
    ReadAs (sign :: text) (unary operator operand) := by
  intro endings fuel rest known ends enough
  have leads : operator.isTrailing = false := by
    unfold signOperator? at isSign
    split at isSign <;> cases isSign <;> rfl
  cases fuel with
  | zero => exact absurd enough (Nat.not_lt_zero _)
  | succ fuel =>
      have found := read endings fuel rest known ends (Nat.lt_of_succ_lt_succ enough)
      rw [List.cons_append, readWithin, foldl_endWith_unary leads]
      · simp [isSign, found]
      · rintro _ ⟨⟩
        cases isSign

theorem cast
    {text : List Char} {operand : Expression} (read : ReadAs text operand) {type : String}
    (word : isWord type = true) :
    ReadAs ('(' :: (type.toList ++ ')' :: ' ' :: text)) (.cast type operand) := by
  intro endings fuel rest known ends enough
  simp only [List.cons_append, List.append_assoc] at enough ⊢
  cases fuel with
  | zero => exact absurd enough (Nat.not_lt_zero _)
  | succ fuel =>
      have shorter : (text ++ endingsText endings).length < fuel := by
        simp only [List.length_append, List.length_cons] at enough ⊢
        omega
      have ended : endsWord (')' :: ' ' :: (text ++ (endingsText endings ++ rest))) = true := rfl
      have isCast : readCastType (type.toList ++ ')' :: ' ' ::
          (text ++ (endingsText endings ++ rest))) =
          some (type, text ++ (endingsText endings ++ rest)) := by
        simp only [readCastType, readName_append word ended]
      rw [readWithin, isCast, foldl_endWith_cast]
      simp [read endings fuel rest known ends shorter]

/-- What stands in parentheses and is not the type of a cast is read as one operand. -/
theorem group
    {text : List Char} {expression : Expression}
    (noCast : ∀ rest, readCastType (text ++ ')' :: rest) = none)
    (found : ∀ fuel rest, text.length < fuel →
      readCompound (readWithin fuel) (text ++ ')' :: rest) = some (expression, rest)) :
    ReadAs ('(' :: (text ++ [')'])) expression := by
  intro endings fuel rest known ends enough
  simp only [List.cons_append, List.append_assoc, List.nil_append] at enough ⊢
  cases fuel with
  | zero => exact absurd enough (Nat.not_lt_zero _)
  | succ fuel =>
      simp only [List.length_append, List.length_cons] at enough
      rw [readWithin, noCast]
      simp only
      rw [found fuel _ (by omega)]
      exact readEndings_append known ends (by omega)

theorem binary
    {firstText secondText : List Char} {first second : Expression}
    (readFirst : ReadAs firstText first) (readSecond : ReadAs secondText second)
    (noCast : ∀ rest, readCastType (firstText ++ ' ' :: rest) = none)
    {operator : BinaryOperator} (named : operator ≠ .any) :
    ReadAs ('(' :: (firstText ++ ' ' :: (operator.symbol.toList ++ ' ' :: secondText) ++ [')']))
      (.binary operator first second) := by
  have solid : operator.symbol.toList.all (· != ' ') = true := by
    cases operator <;> rfl
  have noQuestion : operator.symbol.toList ≠ ['?'] := by
    cases operator <;> decide
  have found : binaryOperators.find? (·.symbol.toList = operator.symbol.toList) =
      some operator := by
    cases operator with
    | any => contradiction
    | _ => rfl
  refine group (fun rest => ?_) (fun fuel rest enough => ?_)
  · simpa only [List.append_assoc, List.cons_append] using noCast _
  · simp only [List.length_append, List.length_cons] at enough
    have readsFirst := fun rest =>
      readFirst.readWithin_eq fuel (' ' :: rest) rfl (by omega)
    have readsSecond := readSecond.readWithin_eq fuel (')' :: rest) rfl (by omega)
    simp only [List.append_assoc, List.cons_append]
    simp [readCompound, readsFirst, readSymbol_append solid, readsSecond, noQuestion, found,
      readClosing]

theorem conditional
    {firstText secondText thirdText : List Char} {first second third : Expression}
    (readFirst : ReadAs firstText first) (readSecond : ReadAs secondText second)
    (readThird : ReadAs thirdText third)
    (noCast : ∀ rest, readCastType (firstText ++ ' ' :: rest) = none) :
    ReadAs ('(' :: (firstText ++ ' ' :: '?' :: ' ' ::
      (secondText ++ ' ' :: ':' :: ' ' :: thirdText) ++ [')']))
      (.conditional first second third) := by
  refine group (fun rest => ?_) (fun fuel rest enough => ?_)
  · simpa only [List.append_assoc, List.cons_append] using noCast _
  · simp only [List.length_append, List.length_cons] at enough
    have readsFirst := fun rest =>
      readFirst.readWithin_eq fuel (' ' :: rest) rfl (by omega)
    have readsSecond := fun rest =>
      readSecond.readWithin_eq fuel (' ' :: rest) rfl (by omega)
    have readsThird := readThird.readWithin_eq fuel (')' :: rest) rfl (by omega)
    simp only [List.append_assoc, List.cons_append]
    simp [readCompound, readsFirst, readSymbol, readsSecond, readColon, readsThird, readClosing]

end ReadAs

/-- The reader finds the regrouped expression. -/
theorem readAs_regrouped {expression : Expression} (concrete : expression.isConcrete = true) :
    ReadAs expression.text.toList expression.regrouped := by
  induction expression with
  | identifier name => exact ReadAs.access List.all_nil concrete
  | ownMember types name =>
      have words := Bool.and_eq_true_iff.mp concrete
      rw [text, String.toList_append]
      exact ReadAs.access words.1 words.2
  | member target types name targetHypothesis =>
      simp only [isConcrete, Bool.and_eq_true] at concrete
      have known : (Ending.member types name).isConcrete = true := by
        simp [Ending.isConcrete, concrete]
      have spelled : (member target types name).text =
          target.text ++ (Ending.member types name).text :=
        Ending.text_after target (.member types name)
      rw [spelled, String.toList_append]
      exact (targetHypothesis concrete.1.1).withEnding known
  | cast type operand operandHypothesis =>
      have parts := Bool.and_eq_true_iff.mp concrete
      simpa [text, regrouped] using (operandHypothesis parts.2).cast parts.1
  | unary operator operand operandHypothesis =>
      simp only [isConcrete, Bool.and_eq_true, bne_iff_ne] at concrete
      have read := operandHypothesis concrete.2
      have once {sign : Char} (isSign : signOperator? sign = some operator)
          (symbol : operator.symbol.toList = [sign]) (leads : operator.isTrailing = false) :
          ReadAs (unary operator operand).text.toList (unary operator operand.regrouped) := by
        simpa [text, symbol, leads] using read.afterSign isSign
      cases operator with
      | postIncrement =>
          have known : Ending.increment.isConcrete = true := rfl
          have spelled : (unary .postIncrement operand).text =
              operand.text ++ Ending.increment.text := rfl
          rw [spelled, String.toList_append]
          exact read.withEnding known
      | postDecrement =>
          have known : Ending.decrement.isConcrete = true := rfl
          have spelled : (unary .postDecrement operand).text =
              operand.text ++ Ending.decrement.text := rfl
          rw [spelled, String.toList_append]
          exact read.withEnding known
      | preIncrement =>
          have signs : ReadAs ('+' :: '+' :: operand.text.toList)
              (unary .plus (unary .plus operand.regrouped)) :=
            (read.afterSign rfl).afterSign rfl
          simpa [text, UnaryOperator.symbol, UnaryOperator.isTrailing, regrouped] using signs
      | preDecrement =>
          have signs : ReadAs ('-' :: '-' :: operand.text.toList)
              (unary .minus (unary .minus operand.regrouped)) :=
            (read.afterSign rfl).afterSign rfl
          simpa [text, UnaryOperator.symbol, UnaryOperator.isTrailing, regrouped] using signs
      | not => exact once rfl rfl rfl
      | bitNot => exact once rfl rfl rfl
      | minus => exact once rfl rfl rfl
      | plus => exact once rfl rfl rfl
      | any => exact absurd rfl concrete.1
  | binary operator left right leftHypothesis rightHypothesis =>
      simp only [isConcrete, Bool.and_eq_true, bne_iff_ne] at concrete
      have noCast (rest : List Char) : readCastType (left.text.toList ++ ' ' :: rest) = none :=
        readCastType_text concrete.1.2 (by decide) (by decide)
      simpa [text, regrouped] using
        (leftHypothesis concrete.1.2).binary (rightHypothesis concrete.2) noCast concrete.1.1
  | conditional condition whenTrue whenFalse conditionHypothesis trueHypothesis falseHypothesis =>
      simp only [isConcrete, Bool.and_eq_true] at concrete
      have noCast (rest : List Char) :
          readCastType (condition.text.toList ++ ' ' :: rest) = none :=
        readCastType_text concrete.1.1 (by decide) (by decide)
      simpa [text, regrouped] using (conditionHypothesis concrete.1.1).conditional
        (trueHypothesis concrete.1.2) (falseHypothesis concrete.2) noCast

/-- Reading the text of an expression gives the regrouped expression. -/
theorem read?_text {expression : Expression} (concrete : expression.isConcrete = true) :
    read? expression.text = some expression.regrouped := by
  have enough : expression.text.toList.length < expression.text.length + 1 := by
    rw [String.length_toList]
    exact Nat.lt_succ_self _
  have found := (readAs_regrouped concrete).readWithin_eq _ [] rfl enough
  rw [List.append_nil] at found
  rw [read?, found]

end Expression

namespace Tree

/-- Two trees of expressions have the same text exactly if the expressions regroup in the same way,
and they are equal exactly if the expressions are the same. -/
theorem render_eq_iff_regrouped
    {first second : Tree} {left right : Expression} (showsLeft : first.Shows left)
    (showsRight : second.Shows right) (leftConcrete : left.isConcrete = true)
    (rightConcrete : right.isConcrete = true) :
    (first.render = second.render ↔ left.regrouped = right.regrouped) ∧
      (first.same second = true ↔ left = right) := by
  refine ⟨?_, showsLeft.same_iff showsRight leftConcrete⟩
  rw [showsLeft.render_eq, showsRight.render_eq]
  constructor
  · intro sameText
    have sameReading : Expression.read? left.text = Expression.read? right.text :=
      congrArg Expression.read? sameText
    rw [Expression.read?_text leftConcrete, Expression.read?_text rightConcrete] at sameReading
    exact Option.some.inj sameReading
  · intro sameGroups
    rw [← left.text_regrouped, sameGroups, right.text_regrouped]

/-- The cast of an access to a member and the access to a member of a cast have one text,
`(T) a.<U, V>b++`, and are different trees. -/
theorem render_eq_iff_regrouped_of_castAccess :
    let left : Expression :=
      .cast "T" (.unary .postIncrement (.member (.identifier "a") ["U", "V"] "b"))
    let right : Expression :=
      .unary .postIncrement (.member (.cast "T" (.identifier "a")) ["U", "V"] "b")
    left.tree.Shows left ∧ right.tree.Shows right ∧
      left.isConcrete = true ∧ right.isConcrete = true ∧
      left.tree.render = "(T) a.<U, V>b++" ∧ right.tree.render = "(T) a.<U, V>b++" ∧
      left.regrouped = right.regrouped ∧ left.tree.same right.tree = false := by
  intro left right
  have leftConcrete : left.isConcrete = true := by decide +kernel
  have rightConcrete : right.isConcrete = true := by decide +kernel
  have leftText : left.tree.render = "(T) a.<U, V>b++" := by decide +kernel
  have rightText : right.tree.render = "(T) a.<U, V>b++" := by decide +kernel
  have compared := render_eq_iff_regrouped left.shows_tree right.shows_tree leftConcrete
    rightConcrete
  refine ⟨left.shows_tree, right.shows_tree, leftConcrete, rightConcrete, leftText, rightText,
    compared.1.mp (leftText.trans rightText.symm), ?_⟩
  exact Bool.eq_false_iff.mpr fun equal => nomatch compared.2.mp equal

/-- The negation of a negation and a decrement have one text, `--a`, and are different trees. -/
theorem not_forall_same_of_render_eq :
    ¬ ∀ (first second : Tree) (left right : Expression), first.Shows left → second.Shows right →
      left.isConcrete = true → right.isConcrete = true → first.render = second.render →
      first.same second = true := by
  intro unambiguous
  let negations : Expression := .unary .minus (.unary .minus (.identifier "a"))
  let decrement : Expression := .unary .preDecrement (.identifier "a")
  have equal : negations.tree.same decrement.tree = true :=
    unambiguous _ _ negations decrement negations.shows_tree decrement.shows_tree
      (by decide +kernel) (by decide +kernel) (by decide +kernel)
  exact absurd equal (by decide +kernel)

end Tree

end TypedJava
