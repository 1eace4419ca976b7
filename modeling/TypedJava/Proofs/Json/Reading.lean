import TypedJava.Proofs.Json.Grammar
import Mathlib.Data.List.DropRight
import Mathlib.Data.List.Forall2
import Mathlib.Tactic.IntervalCases

/-! # Reading JSON texts

The reader takes every text of the grammar: strings with their characters, numbers that are written
with digits only with their values, and all other values to their ends. -/

namespace TypedJava

namespace Json

/-! ## Blanks -/

theorem isSpace_of_mem {character : Char} (member : character ∈ [' ', '\t', '\n', '\r']) :
    isSpace character = true := by
  simp only [List.mem_cons, List.not_mem_nil, or_false] at member
  rcases member with rfl | rfl | rfl | rfl <;> rfl

theorem skipSpace_append {blanks : List Char} (blank : IsBlank blanks) (text : List Char) :
    skipSpace (blanks ++ text) = skipSpace text :=
  List.dropWhile_append_of_pos fun character member => isSpace_of_mem (blank character member)

theorem skipSpace_cons {character : Char} (solid : isSpace character = false) (text : List Char) :
    skipSpace (character :: text) = character :: text := by
  rw [skipSpace, List.dropWhile_cons_of_neg (by simp [solid])]

/-! ## Strings -/

theorem hexValue?_of_isHexDigit
    {character : Char} {value : Nat} (digit : IsHexDigit character value) :
    hexValue? character = some value := by
  rcases digit with found | found
  all_goals
    have less := (List.getElem?_eq_some_iff.mp found).1
    simp only [List.length_cons, List.length_nil] at less
    interval_cases value <;> cases found <;> rfl

theorem readUnits_short
    {letter : Char} {code : Nat} (escape : shortEscape? letter = some code) (text : List Char) :
    readUnits ('\\' :: letter :: text) =
      (readUnits text).map fun (units, rest) => (code :: units, rest) := by
  rw [readUnits, escape]
  · cases readUnits text <;> rfl
  · rintro first second third fourth rest ⟨⟩
    cases escape

/-- A spelled unit is taken off the front. -/
theorem readUnits_append
    {unit : Nat} {piece : List Char} (spells : SpellsUnit unit piece) (text : List Char) :
    readUnits (piece ++ text) =
      (readUnits text).map fun (units, rest) => (unit :: units, rest) := by
  cases spells with
  | @plain character visible noQuote noBackslash =>
      have isPlain : (character.toNat < 0x20 || character == '\\') = false := by
        simp [visible, noBackslash]
      rw [List.singleton_append, readUnits, isPlain]
      · cases readUnits text <;> rfl
      all_goals simp_all
  | short member =>
      simp only [shortEscapes, List.mem_cons, Prod.mk.injEq, List.not_mem_nil, or_false] at member
      rcases member with ⟨rfl, rfl⟩ | ⟨rfl, rfl⟩ | ⟨rfl, rfl⟩ | ⟨rfl, rfl⟩ | ⟨rfl, rfl⟩ |
        ⟨rfl, rfl⟩ | ⟨rfl, rfl⟩ | ⟨rfl, rfl⟩
      all_goals exact readUnits_short rfl text
  | unicode first second third fourth =>
      simp only [List.cons_append, List.nil_append, readUnits, hexUnit?,
        hexValue?_of_isHexDigit first, hexValue?_of_isHexDigit second,
        hexValue?_of_isHexDigit third, hexValue?_of_isHexDigit fourth]
      cases readUnits text <;> rfl

theorem exists_readUnits_of_isStringBody {body : List Char} (isBody : IsStringBody body)
    (rest : List Char) : ∃ units, readUnits (body ++ '"' :: rest) = some (units, rest) := by
  induction isBody with
  | nil =>
      exact ⟨[], rfl⟩
  | cons spells _ inductionHypothesis =>
      obtain ⟨units, read⟩ := inductionHypothesis
      rw [List.append_assoc, readUnits_append spells, read]
      exact ⟨_, rfl⟩

theorem toNat_not_surrogate (character : Char) :
    isHighSurrogate character.toNat = false ∧ isLowSurrogate character.toNat = false := by
  have valid : character.toNat < 0xD800 ∨ 0xDFFF < character.toNat ∧ character.toNat < 0x110000 :=
    character.valid
  simp only [isHighSurrogate, isLowSurrogate, Bool.and_eq_false_iff, decide_eq_false_iff_not]
  omega

theorem joinUnits?_cons (character : Char) (units : List Nat) :
    joinUnits? (character.toNat :: units) = (joinUnits? units).map (character :: ·) := by
  obtain ⟨notHigh, notLow⟩ := toNat_not_surrogate character
  cases units <;> simp [joinUnits?, notHigh, notLow]

theorem joinUnits?_pair
    {character : Char} {high low : Nat} (least : 0xD800 ≤ high) (most : high ≤ 0xDBFF)
    (leastLow : 0xDC00 ≤ low) (mostLow : low ≤ 0xDFFF)
    (code : character.toNat = 0x10000 + (high - 0xD800) * 0x400 + (low - 0xDC00))
    (units : List Nat) :
    joinUnits? (high :: low :: units) = (joinUnits? units).map (character :: ·) := by
  rw [joinUnits?, ← code, Char.ofNat_toNat]
  simp [isHighSurrogate, isLowSurrogate, least, most, leastLow, mostLow]

theorem exists_readUnits_of_spells
    {characters body : List Char} (spells : Spells characters body) (rest : List Char) :
    ∃ units, readUnits (body ++ '"' :: rest) = some (units, rest) ∧
      joinUnits? units = some characters := by
  induction spells with
  | nil =>
      exact ⟨[], rfl, rfl⟩
  | cons spellsUnit _ inductionHypothesis =>
      obtain ⟨units, read, joined⟩ := inductionHypothesis
      rw [List.append_assoc, readUnits_append spellsUnit, read]
      exact ⟨_, rfl, by rw [joinUnits?_cons, joined]; rfl⟩
  | pair spellsHigh least most spellsLow leastLow mostLow code _ inductionHypothesis =>
      obtain ⟨units, read, joined⟩ := inductionHypothesis
      rw [List.append_assoc, List.append_assoc, readUnits_append spellsHigh,
        readUnits_append spellsLow, read]
      exact ⟨_, rfl, by rw [joinUnits?_pair least most leastLow mostLow code, joined]; rfl⟩

theorem exists_readString_of_isStringBody
    {body : List Char} (isBody : IsStringBody body) (rest : List Char) :
    ∃ value, readString (body ++ '"' :: rest) = some (value, rest) := by
  obtain ⟨units, read⟩ := exists_readUnits_of_isStringBody isBody rest
  rw [readString, read]
  exact ⟨_, rfl⟩

theorem readString_of_spells
    {name : String} {body : List Char} (spells : Spells name.toList body) (rest : List Char) :
    readString (body ++ '"' :: rest) = some (some name, rest) := by
  obtain ⟨units, read, joined⟩ := exists_readUnits_of_spells spells rest
  simp [readString, read, joined]

/-! ## Numbers -/

/-- What may follow a number: nothing that could belong to it. -/
def EndsNumber (rest : List Char) : Prop :=
  ∀ character ∈ rest.head?,
    character.isDigit = false ∧ character ≠ '.' ∧ character ≠ 'e' ∧ character ≠ 'E'

theorem readDigits_append
    {digits rest : List Char} (isDigits : IsDigits digits)
    (noDigit : ∀ character ∈ rest.head?, character.isDigit = false) :
    readDigits (digits ++ rest) = some (digits, rest) := by
  have noneTaken : rest.takeWhile Char.isDigit = [] ∧ rest.dropWhile Char.isDigit = rest := by
    cases rest with
    | nil =>
        exact ⟨rfl, rfl⟩
    | cons character rest =>
        have solid := noDigit character rfl
        simp [solid]
  rw [readDigits, List.takeWhile_append_of_pos isDigits.2, List.dropWhile_append_of_pos isDigits.2,
    noneTaken.1, noneTaken.2, List.append_nil]
  cases digits with
  | nil =>
      exact absurd rfl isDigits.1
  | cons first digits =>
      rfl

theorem readWhole_append
    {whole rest : List Char} (isWhole : IsWhole whole)
    (noDigit : ∀ character ∈ rest.head?, character.isDigit = false) :
    readWhole (whole ++ rest) = some (whole, rest) := by
  have noLeadingZero : whole.head? = some '0' → whole.length ≤ 1 := by
    intro zero
    rw [isWhole.2 zero, List.length_singleton]
  simpa [readWhole, readDigits_append isWhole.1 noDigit] using noLeadingZero

theorem readFraction_append
    {fraction rest : List Char} (isFraction : IsFraction fraction)
    (ends : ∀ character ∈ rest.head?, character.isDigit = false ∧ character ≠ '.') :
    readFraction (fraction ++ rest) = some (!fraction.isEmpty, rest) := by
  cases isFraction with
  | none =>
      cases rest with
      | nil =>
          rfl
      | cons character rest =>
          have noPoint := (ends character rfl).2
          rw [List.nil_append, readFraction]
          · rfl
          · simp [noPoint]
  | some isDigits =>
      have noDigit := fun character member => (ends character member).1
      rw [List.cons_append, readFraction, readDigits_append isDigits noDigit]
      rfl

theorem skipSign_append
    {sign digits : List Char} (isSign : sign ∈ [[], ['+'], ['-']]) (isDigits : IsDigits digits)
    (rest : List Char) :
    skipSign (sign ++ (digits ++ rest)) = digits ++ rest := by
  simp only [List.mem_cons, List.not_mem_nil, or_false] at isSign
  rcases isSign with rfl | rfl | rfl
  · obtain ⟨nonempty, each⟩ := isDigits
    cases digits with
    | nil =>
        exact absurd rfl nonempty
    | cons first digits =>
        have isDigit := each first List.mem_cons_self
        rw [List.nil_append, List.cons_append, skipSign]
        · rintro rest ⟨⟩
          cases isDigit
        · rintro rest ⟨⟩
          cases isDigit
  · rfl
  · rfl

theorem readExponent_append
    {exponent rest : List Char} (isExponent : IsExponent exponent) (ends : EndsNumber rest) :
    readExponent (exponent ++ rest) = some (!exponent.isEmpty, rest) := by
  cases isExponent with
  | none =>
      cases rest with
      | nil =>
          rfl
      | cons character rest =>
          obtain ⟨-, -, notSmall, notLarge⟩ := ends character rfl
          rw [List.nil_append, readExponent]
          · rfl
          · simp [notSmall]
          · simp [notLarge]
  | some isMark isSign isDigits =>
      have noDigit := fun character member => (ends character member).1
      simp only [List.mem_cons, List.not_mem_nil, or_false] at isMark
      rcases isMark with rfl | rfl
      all_goals
        rw [List.cons_append, readExponent, List.append_assoc, skipSign_append isSign isDigits,
          readDigits_append isDigits noDigit]
        rfl

/-- A number without a sign has a value if neither a fraction nor an exponent is written. -/
theorem readUnsigned_append
    {whole fraction exponent rest : List Char} (isWhole : IsWhole whole)
    (isFraction : IsFraction fraction) (isExponent : IsExponent exponent)
    (ends : EndsNumber rest) :
    readUnsigned (whole ++ fraction ++ exponent ++ rest) =
      some (if fraction = [] ∧ exponent = [] then some (naturalOf whole) else none, rest) := by
  have afterFraction : ∀ character ∈ (exponent ++ rest).head?,
      character.isDigit = false ∧ character ≠ '.' := by
    cases isExponent with
    | none =>
        exact fun character member => ⟨(ends character member).1, (ends character member).2.1⟩
    | some isMark _ _ =>
        simp only [List.mem_cons, List.not_mem_nil, or_false] at isMark
        rintro character ⟨⟩
        rcases isMark with rfl | rfl <;> decide
  have afterWhole : ∀ character ∈ (fraction ++ (exponent ++ rest)).head?,
      character.isDigit = false := by
    cases isFraction with
    | none =>
        exact fun character member => (afterFraction character member).1
    | some _ =>
        rintro character ⟨⟩
        rfl
  rw [List.append_assoc, List.append_assoc, readUnsigned, readWhole_append isWhole afterWhole]
  simp only [Option.bind_eq_bind, Option.bind_some, readFraction_append isFraction afterFraction,
    readExponent_append isExponent ends]
  cases fraction <;> cases exponent <;> rfl

theorem readNumber_of_isDigit {first : Char} (isDigit : first.isDigit = true) (text : List Char) :
    readNumber (first :: text) = readUnsigned (first :: text) := by
  rw [readNumber]
  rintro rest ⟨⟩
  cases isDigit

theorem IsWhole.exists_cons {whole : List Char} (isWhole : IsWhole whole) :
    ∃ first digits, whole = first :: digits ∧ first.isDigit = true := by
  obtain ⟨⟨nonempty, each⟩, -⟩ := isWhole
  cases whole with
  | nil =>
      exact absurd rfl nonempty
  | cons first digits =>
      exact ⟨first, digits, rfl, each first List.mem_cons_self⟩

theorem readNumber_of_isWhole
    {whole rest : List Char} (isWhole : IsWhole whole) (ends : EndsNumber rest) :
    readNumber (whole ++ rest) = some (some (naturalOf whole), rest) := by
  obtain ⟨first, digits, rfl, isDigit⟩ := isWhole.exists_cons
  have read := readUnsigned_append isWhole .none .none ends
  simp only [List.append_nil, and_self, if_true] at read
  rw [List.cons_append, readNumber_of_isDigit isDigit]
  exact read

theorem exists_readNumber_of_isNumber
    {text rest : List Char} (isNumber : IsNumber text) (ends : EndsNumber rest) :
    ∃ value, readNumber (text ++ rest) = some (value, rest) := by
  obtain ⟨isSign, isWhole, isFraction, isExponent⟩ := isNumber
  have read := readUnsigned_append isWhole isFraction isExponent ends
  obtain ⟨first, digits, rfl, isDigit⟩ := isWhole.exists_cons
  simp only [List.mem_cons, List.not_mem_nil, or_false] at isSign
  rcases isSign with rfl | rfl
  · rw [List.nil_append, List.cons_append, List.cons_append, List.cons_append,
      readNumber_of_isDigit isDigit]
    exact ⟨_, read⟩
  · simp only [List.cons_append, List.nil_append] at read ⊢
    rw [readNumber, read]
    exact ⟨_, rfl⟩

/-- The character may begin a number. -/
def StartsNumber (first : Char) : Prop :=
  first = '-' ∨ first.isDigit = true

instance : DecidablePred StartsNumber := fun _ => inferInstanceAs (Decidable (_ ∨ _))

theorem StartsNumber.solid {first : Char} (starts : StartsNumber first) :
    isSpace first = false := by
  by_contra blank
  rw [Bool.not_eq_false, isSpace, Bool.or_eq_true, Bool.or_eq_true, Bool.or_eq_true] at blank
  simp only [beq_iff_eq] at blank
  rcases blank with ((rfl | rfl) | rfl) | rfl <;> exact absurd starts (by decide)

theorem IsNumber.exists_cons {text : List Char} (isNumber : IsNumber text) :
    ∃ first rest, text = first :: rest ∧ StartsNumber first := by
  obtain ⟨isSign, isWhole, isFraction, isExponent⟩ := isNumber
  obtain ⟨first, digits, rfl, isDigit⟩ := isWhole.exists_cons
  simp only [List.mem_cons, List.not_mem_nil, or_false] at isSign
  rcases isSign with rfl | rfl
  · exact ⟨first, _, rfl, Or.inr isDigit⟩
  · exact ⟨'-', _, rfl, Or.inl rfl⟩

/-! ## Values -/

theorem endsNumber_append
    {blanks rest : List Char} (blank : IsBlank blanks) (ends : EndsNumber rest) :
    EndsNumber (blanks ++ rest) := by
  cases blanks with
  | nil =>
      exact ends
  | cons first blanks =>
      have isBlank := blank first List.mem_cons_self
      simp only [List.mem_cons, List.not_mem_nil, or_false] at isBlank
      rintro character ⟨⟩
      rcases isBlank with rfl | rfl | rfl | rfl <;> decide

theorem endsNumber_cons (first : Char) (isMark : first ∈ [',', ']', '\x7d']) (rest : List Char) :
    EndsNumber (first :: rest) := by
  simp only [List.mem_cons, List.not_mem_nil, or_false] at isMark
  rintro character ⟨⟩
  rcases isMark with rfl | rfl | rfl <;> decide

theorem readValue_of_startsNumber
    {first : Char} (starts : StartsNumber first) {text rest : List Char}
    (skipped : skipSpace text = first :: rest) (fuel : Nat) :
    readValue (fuel + 1) text =
      (readNumber (first :: rest)).map fun (value, rest) => (number value, rest) := by
  rw [readValue, skipped]
  split
  case h_1 same =>
    cases same
  case h_8 =>
    rfl
  all_goals
    rename_i same
    cases same
    exact absurd starts (by decide)

/-- A value begins with a character that is no blank and closes no array. -/
theorem IsValue.exists_cons {text : List Char} (isValue : IsValue text) :
    ∃ first rest, text = first :: rest ∧ isSpace first = false ∧ first ≠ ']' := by
  cases isValue with
  | number isNumber =>
      obtain ⟨first, rest, rfl, starts⟩ := isNumber.exists_cons
      refine ⟨first, rest, rfl, starts.solid, ?_⟩
      rintro rfl
      exact absurd starts (by decide)
  | _ =>
      exact ⟨_, _, rfl, by decide, by decide⟩

/-- With so much fuel every text of a value is read. -/
def ReadsValues (fuel : Nat) : Prop :=
  ∀ {before text rest : List Char}, IsBlank before → IsValue text → EndsNumber rest →
    2 * text.length ≤ fuel → ∃ value, readValue fuel (before ++ (text ++ rest)) = some (value, rest)

/-- With so much fuel every text of items is read up to the end of the array. -/
def ReadsItems (fuel : Nat) : Prop :=
  ∀ {items : List Char}, IsItems items → 2 * items.length + 1 ≤ fuel → ∀ rest,
    ∃ values, readItems fuel (items ++ ']' :: rest) = some (values, rest)

/-- With so much fuel every text of members is read up to the end of the object. -/
def ReadsMembers (fuel : Nat) : Prop :=
  ∀ {members : List Char}, IsMembers members → 2 * members.length + 1 ≤ fuel → ∀ rest,
    ∃ fields, readFields fuel (members ++ '\x7d' :: rest) = some (fields, rest)

theorem skipSpace_skipSpace (text : List Char) : skipSpace (skipSpace text) = skipSpace text := by
  rw [skipSpace, skipSpace, List.dropWhile_idempotent]

theorem readValue_skipSpace (fuel : Nat) (text : List Char) :
    readValue fuel (skipSpace text) = readValue fuel text := by
  cases fuel with
  | zero =>
      rfl
  | succ fuel =>
      rw [readValue, readValue, skipSpace_skipSpace]

theorem readItems_skipSpace (fuel : Nat) (text : List Char) :
    readItems fuel (skipSpace text) = readItems fuel text := by
  cases fuel with
  | zero =>
      rfl
  | succ fuel =>
      rw [readItems, readItems, readValue_skipSpace]

theorem readFields_skipSpace (fuel : Nat) (text : List Char) :
    readFields fuel (skipSpace text) = readFields fuel text := by
  cases fuel with
  | zero =>
      rfl
  | succ fuel =>
      rw [readFields, readFields, skipSpace_skipSpace]

theorem skipSpace_mark
    {blanks : List Char} (blank : IsBlank blanks) (mark : Char) (solid : isSpace mark = false)
    (rest : List Char) :
    skipSpace (blanks ++ mark :: rest) = mark :: rest := by
  rw [skipSpace_append blank, skipSpace_cons solid]

theorem Spacing.member_append (spacing : Spacing) (name value rest : List Char) :
    spacing.member name value ++ rest =
      spacing.beforeName ++ '"' :: (name ++ '"' :: (spacing.beforeColon ++ ':' ::
        (spacing.beforeValue ++ (value ++ (spacing.afterValue ++ rest))))) := by
  simp [Spacing.member]

theorem IsItems.skipSpace_append {items : List Char} (isItems : IsItems items)
    (rest : List Char) :
    ∃ first others, skipSpace (items ++ rest) = first :: others ∧ first ≠ ']' := by
  cases isItems with
  | last blank isValue _ =>
      obtain ⟨first, text, rfl, solid, noEnd⟩ := isValue.exists_cons
      rw [List.append_assoc, List.append_assoc, Json.skipSpace_append blank]
      exact ⟨first, _, skipSpace_cons solid _, noEnd⟩
  | cons blank isValue _ _ =>
      obtain ⟨first, text, rfl, solid, noEnd⟩ := isValue.exists_cons
      rw [List.append_assoc, List.append_assoc, List.append_assoc, Json.skipSpace_append blank]
      exact ⟨first, _, skipSpace_cons solid _, noEnd⟩

theorem IsMembers.skipSpace_append {members : List Char} (isMembers : IsMembers members)
    (rest : List Char) :
    ∃ others, skipSpace (members ++ rest) = '"' :: others := by
  cases isMembers with
  | last blank _ _ =>
      rw [Spacing.member_append]
      exact ⟨_, skipSpace_mark blank.beforeName '"' rfl _⟩
  | cons blank _ _ _ =>
      rw [List.append_assoc, Spacing.member_append]
      exact ⟨_, skipSpace_mark blank.beforeName '"' rfl _⟩

section Steps

variable {fuel : Nat}

theorem readsItems_succ (values : ReadsValues fuel) (items : ReadsItems fuel) :
    ReadsItems (fuel + 1) := by
  intro text isItems enough rest
  cases isItems with
  | last blankBefore isValue blankAfter =>
      have ends := endsNumber_append blankAfter (endsNumber_cons ']' (by decide) rest)
      simp only [List.length_append] at enough
      obtain ⟨value, read⟩ := values blankBefore isValue ends (by omega)
      rw [readItems, List.append_assoc, List.append_assoc, read]
      simp only [Option.bind_eq_bind, Option.bind_some, skipSpace_mark blankAfter ']' rfl]
      exact ⟨_, rfl⟩
  | @cons before value after others blankBefore isValue blankAfter isItems =>
      have ends := endsNumber_append blankAfter
        (endsNumber_cons ',' (by decide) (others ++ ']' :: rest))
      simp only [List.length_append, List.length_cons] at enough
      obtain ⟨first, read⟩ := values blankBefore isValue ends (by omega)
      obtain ⟨others, readOthers⟩ := items isItems (by omega) rest
      rw [readItems, List.append_assoc, List.append_assoc, List.append_assoc, List.cons_append,
        read]
      simp only [Option.bind_eq_bind, Option.bind_some, skipSpace_mark blankAfter ',' rfl,
        readOthers]
      exact ⟨_, rfl⟩

/-- Before a mark a member is read as a field. -/
def ReadsMember (fuel : Nat) (spacing : Spacing) (name value : List Char) (mark : Char)
    (rest : List Char) (field : Option String × Json) : Prop :=
  let afterValue := spacing.afterValue ++ mark :: rest
  let afterName := spacing.beforeColon ++ ':' :: (spacing.beforeValue ++ (value ++ afterValue))
  readString (name ++ '"' :: afterName) = some (field.1, afterName) ∧
    readValue fuel (spacing.beforeValue ++ (value ++ afterValue)) = some (field.2, afterValue)

theorem readFields_last
    {spacing : Spacing} (blank : spacing.IsBlank) {name value rest : List Char}
    {field : Option String × Json}
    (reads : ReadsMember fuel spacing name value '\x7d' rest field) :
    readFields (fuel + 1) (spacing.member name value ++ '\x7d' :: rest) = some ([field], rest) := by
  obtain ⟨readName, readValue⟩ := reads
  rw [Spacing.member_append, readFields, skipSpace_mark blank.beforeName '"' rfl]
  simp only [readName, Option.bind_eq_bind, Option.bind_some,
    skipSpace_mark blank.beforeColon ':' rfl, readValue,
    skipSpace_mark blank.afterValue '\x7d' rfl]

theorem readFields_cons
    {spacing : Spacing} (blank : spacing.IsBlank) {name value rest : List Char}
    {field : Option String × Json}
    (reads : ReadsMember fuel spacing name value ',' rest field) :
    readFields (fuel + 1) (spacing.member name value ++ ',' :: rest) =
      (readFields fuel rest).map fun (fields, rest) => (field :: fields, rest) := by
  obtain ⟨readName, readValue⟩ := reads
  rw [Spacing.member_append, readFields, skipSpace_mark blank.beforeName '"' rfl]
  simp only [readName, Option.bind_eq_bind, Option.bind_some,
    skipSpace_mark blank.beforeColon ':' rfl, readValue,
    skipSpace_mark blank.afterValue ',' rfl]
  cases readFields fuel rest <;> rfl

theorem exists_readsMember
    (values : ReadsValues fuel) {spacing : Spacing} (blank : spacing.IsBlank)
    {name value : List Char} (isBody : IsStringBody name) (isValue : IsValue value)
    (enough : 2 * value.length ≤ fuel) (mark : Char) (isMark : mark ∈ [',', ']', '\x7d'])
    (rest : List Char) :
    ∃ field, ReadsMember fuel spacing name value mark rest field := by
  have ends := endsNumber_append blank.afterValue (endsNumber_cons mark isMark rest)
  obtain ⟨key, readName⟩ := exists_readString_of_isStringBody isBody _
  obtain ⟨json, readJson⟩ := values blank.beforeValue isValue ends enough
  exact ⟨(key, json), readName, readJson⟩

theorem Spacing.length_member (spacing : Spacing) (name value : List Char) :
    value.length < (spacing.member name value).length := by
  simp only [Spacing.member, List.length_append, List.length_cons]
  omega

theorem readsMembers_succ (values : ReadsValues fuel) (members : ReadsMembers fuel) :
    ReadsMembers (fuel + 1) := by
  intro text isMembers enough rest
  cases isMembers with
  | @last spacing name value blank isBody isValue =>
      have shorter := spacing.length_member name value
      obtain ⟨field, reads⟩ :=
        exists_readsMember values blank isBody isValue (by omega) '\x7d' (by decide) rest
      exact ⟨_, readFields_last blank reads⟩
  | @cons spacing name value others blank isBody isValue isMembers =>
      have shorter := spacing.length_member name value
      simp only [List.length_append, List.length_cons] at enough
      obtain ⟨field, reads⟩ :=
        exists_readsMember values blank isBody isValue (by omega) ',' (by decide)
          (others ++ '\x7d' :: rest)
      obtain ⟨fields, readOthers⟩ := members isMembers (by omega) rest
      rw [List.append_assoc, List.cons_append, readFields_cons blank reads, readOthers]
      exact ⟨_, rfl⟩

theorem readValue_of_readFields
    {before members rest : List Char} (blank : IsBlank before) (isMembers : IsMembers members)
    {fields : List (Option String × Json)}
    (read : readFields fuel (members ++ '\x7d' :: rest) = some (fields, rest)) :
    readValue (fuel + 1) (before ++ '\x7b' :: (members ++ '\x7d' :: rest)) =
      some (object fields, rest) := by
  obtain ⟨others, skipped⟩ := isMembers.skipSpace_append ('\x7d' :: rest)
  rw [← readFields_skipSpace, skipped] at read
  rw [readValue, skipSpace_mark blank '\x7b' rfl]
  simp only [skipped]
  split
  · rename_i same
    cases same
  · rw [read]
    rfl

theorem readsValues_succ (readItemsAt : ReadsItems fuel) (readMembersAt : ReadsMembers fuel) :
    ReadsValues (fuel + 1) := by
  intro before text rest blank isValue ends enough
  cases isValue with
  | nullWord =>
      rw [readValue, skipSpace_append blank]
      exact ⟨_, rfl⟩
  | trueWord =>
      rw [readValue, skipSpace_append blank]
      exact ⟨_, rfl⟩
  | falseWord =>
      rw [readValue, skipSpace_append blank]
      exact ⟨_, rfl⟩
  | number isNumber =>
      obtain ⟨value, read⟩ := exists_readNumber_of_isNumber isNumber ends
      obtain ⟨first, digits, rfl, starts⟩ := isNumber.exists_cons
      have skipped := skipSpace_mark blank first starts.solid (digits ++ rest)
      rw [List.cons_append, readValue_of_startsNumber starts skipped, ← List.cons_append, read]
      exact ⟨_, rfl⟩
  | @string body isBody =>
      obtain ⟨value, read⟩ := exists_readString_of_isStringBody isBody rest
      rw [List.cons_append, List.append_assoc, List.singleton_append, readValue,
        skipSpace_mark blank '"' rfl]
      simp only [read]
      exact ⟨_, rfl⟩
  | @emptyArray blanks isBlank =>
      rw [List.cons_append, List.append_assoc, List.singleton_append, readValue,
        skipSpace_mark blank '[' rfl]
      simp only [skipSpace_mark isBlank ']' rfl]
      exact ⟨_, rfl⟩
  | @array items isItems =>
      simp only [List.length_append, List.length_cons, List.length_nil] at enough
      obtain ⟨values, read⟩ := readItemsAt isItems (by omega) rest
      obtain ⟨first, others, skipped, noEnd⟩ := isItems.skipSpace_append (']' :: rest)
      rw [← readItems_skipSpace, skipped] at read
      refine ⟨array values, ?_⟩
      rw [List.cons_append, List.append_assoc, List.singleton_append, readValue,
        skipSpace_mark blank '[' rfl]
      simp only [skipped]
      split
      · rename_i same
        cases same
        exact absurd rfl noEnd
      · rw [read]
        rfl
  | @emptyObject blanks isBlank =>
      rw [List.cons_append, List.append_assoc, List.singleton_append, readValue,
        skipSpace_mark blank '\x7b' rfl]
      simp only [skipSpace_mark isBlank '\x7d' rfl]
      exact ⟨_, rfl⟩
  | @object members isMembers =>
      simp only [List.length_append, List.length_cons, List.length_nil] at enough
      obtain ⟨fields, read⟩ := readMembersAt isMembers (by omega) rest
      rw [List.cons_append, List.append_assoc, List.singleton_append]
      exact ⟨_, readValue_of_readFields blank isMembers read⟩

end Steps

theorem IsValue.length_pos {text : List Char} (isValue : IsValue text) : 0 < text.length := by
  obtain ⟨first, rest, rfl, -⟩ := isValue.exists_cons
  exact Nat.zero_lt_succ _

/-- Every text of the grammar is read, if there is fuel enough for its length. -/
theorem reads_of_fuel (fuel : Nat) : ReadsValues fuel ∧ ReadsItems fuel ∧ ReadsMembers fuel := by
  induction fuel with
  | zero =>
      refine ⟨?_, ?_, ?_⟩
      · intro before text rest _ isValue _ enough
        have nonempty := isValue.length_pos
        omega
      · intro items _ enough
        omega
      · intro members _ enough
        omega
  | succ fuel inductionHypothesis =>
      obtain ⟨values, items, members⟩ := inductionHypothesis
      exact ⟨readsValues_succ items members, readsItems_succ values items,
        readsMembers_succ values members⟩

/-! ## What is read -/

theorem head?_toDigits {number : Nat} (zero : (Nat.toDigits 10 number).head? = some '0') :
    number = 0 := by
  induction number using Nat.strong_induction_on with
  | _ number inductionHypothesis =>
      rw [Nat.toDigits_eq_if (by decide)] at zero
      split at zero
      · rename_i single
        interval_cases number <;> first | rfl | cases zero
      · rename_i several
        rw [List.head?_append_of_ne_nil _ Nat.toDigits_ne_nil] at zero
        have smaller := inductionHypothesis (number / 10) (by omega) zero
        omega

theorem isWhole_toDigits (number : Nat) : IsWhole (Nat.toDigits 10 number) := by
  refine ⟨⟨Nat.toDigits_ne_nil, ?_⟩, ?_⟩
  · intro character member
    exact Nat.isDigit_of_mem_toDigits (by decide) (by decide) member
  · intro zero
    rw [head?_toDigits zero]
    rfl

theorem naturalOf_toDigits (number : Nat) : naturalOf (Nat.toDigits 10 number) = number := by
  have read : Nat.ofDigitChars 10 (Nat.toDigits 10 number) 0 = number :=
    Nat.ofDigitChars_ten_toDigits
  rw [Nat.ofDigitChars_eq_foldl] at read
  simpa only [naturalOf, Nat.mul_comm] using read

theorem naturalOf_toString (number : Nat) : naturalOf (toString number).toList = number := by
  rw [Nat.toString_eq_repr, Nat.toList_repr, naturalOf_toDigits]

/-- What is read of a value that is a truth value or a natural number. -/
structure Denotes (text : String) (json : Json) : Prop where
  ofTrue : text = "true" → json = .boolean true
  ofFalse : text = "false" → json = .boolean false
  ofNatural : ∀ number : Nat, text = toString number → json = .number (some number)

theorem denotes_of_readValue
    {fuel : Nat} {before rest after : List Char} {text : String} {json : Json}
    (blank : IsBlank before) (ends : EndsNumber rest)
    (read : readValue fuel (before ++ (text.toList ++ rest)) = some (json, after)) :
    Denotes text json := by
  cases fuel with
  | zero =>
      cases read
  | succ fuel =>
      refine ⟨?_, ?_, ?_⟩
      · rintro rfl
        rw [readValue, skipSpace_append blank] at read
        cases read
        rfl
      · rintro rfl
        rw [readValue, skipSpace_append blank] at read
        cases read
        rfl
      · rintro number rfl
        have isWhole := isWhole_toDigits number
        rw [Nat.toString_eq_repr, Nat.toList_repr] at read
        obtain ⟨first, digits, same, isDigit⟩ := isWhole.exists_cons
        have starts : StartsNumber first := Or.inr isDigit
        have skipped := skipSpace_mark blank first starts.solid (digits ++ rest)
        rw [same, List.cons_append, readValue_of_startsNumber starts skipped, ← List.cons_append,
          ← same, readNumber_of_isWhole isWhole ends, naturalOf_toDigits] at read
        cases read
        rfl

/-- Members and the fields that are read of them. -/
def AreRead (members : List (String × String)) (fields : List (Option String × Json)) : Prop :=
  List.Forall₂ (fun member field => field.1 = some member.1 ∧ Denotes member.2 field.2) members
    fields

theorem exists_readsMember_of_spells
    (fuel : Nat) {spacing : Spacing} (blank : spacing.IsBlank) {name value : String}
    {spelling : List Char} (spells : Spells name.toList spelling) (isValue : IsValue value.toList)
    (enough : 2 * value.toList.length ≤ fuel) (mark : Char)
    (isMark : mark ∈ [',', ']', '\x7d']) (rest : List Char) :
    ∃ json, ReadsMember fuel spacing spelling value.toList mark rest (some name, json) ∧
      Denotes value json := by
  have ends := endsNumber_append blank.afterValue (endsNumber_cons mark isMark rest)
  obtain ⟨json, read⟩ := (reads_of_fuel fuel).1 blank.beforeValue isValue ends enough
  exact ⟨json, ⟨readString_of_spells spells _, read⟩,
    denotes_of_readValue blank.beforeValue ends read⟩

theorem exists_readFields_of_writesMembers
    {members : List (String × String)} {text : List Char} (writes : WritesMembers members text)
    {fuel : Nat} (enough : 2 * text.length + 1 ≤ fuel) (rest : List Char) :
    ∃ fields, readFields fuel (text ++ '\x7d' :: rest) = some (fields, rest) ∧
      AreRead members fields := by
  induction writes generalizing fuel with
  | @last spacing name value spelling blank spells isValue =>
      have shorter := spacing.length_member spelling value.toList
      obtain ⟨fuel, rfl⟩ : ∃ less, fuel = less + 1 := ⟨fuel - 1, by omega⟩
      obtain ⟨json, reads, denotes⟩ :=
        exists_readsMember_of_spells fuel blank spells isValue (by omega) '\x7d'
          (by decide) rest
      exact ⟨_, readFields_last blank reads, .cons ⟨rfl, denotes⟩ .nil⟩
  | @cons spacing name value spelling text members blank spells isValue _ inductionHypothesis =>
      have shorter := spacing.length_member spelling value.toList
      simp only [List.length_append, List.length_cons] at enough
      obtain ⟨fuel, rfl⟩ : ∃ less, fuel = less + 1 := ⟨fuel - 1, by omega⟩
      obtain ⟨json, reads, denotes⟩ :=
        exists_readsMember_of_spells fuel blank spells isValue (by omega) ','
          (by decide) (text ++ '\x7d' :: rest)
      obtain ⟨fields, read, areRead⟩ := @inductionHypothesis fuel (by omega)
      rw [List.append_assoc, List.cons_append, readFields_cons blank reads, read]
      exact ⟨_, rfl, .cons ⟨rfl, denotes⟩ areRead⟩

theorem Spells.isStringBody {characters text : List Char} (spells : Spells characters text) :
    IsStringBody text := by
  induction spells with
  | nil =>
      exact .nil
  | cons spellsUnit _ inductionHypothesis =>
      exact .cons spellsUnit inductionHypothesis
  | pair spellsHigh _ _ spellsLow _ _ _ _ inductionHypothesis =>
      rw [List.append_assoc]
      exact .cons spellsHigh (.cons spellsLow inductionHypothesis)

theorem WritesMembers.isMembers
    {members : List (String × String)} {text : List Char} (writes : WritesMembers members text) :
    IsMembers text := by
  induction writes with
  | last blank spells isValue =>
      exact .last blank spells.isStringBody isValue
  | cons blank spells isValue _ inductionHypothesis =>
      exact .cons blank spells.isStringBody isValue inductionHypothesis

/-- A document that is an object is read as the object of its members. -/
theorem exists_ofText?_of_writesObject
    {members : List (String × String)} {text : String}
    (writes : WritesObject members text.toList) :
    ∃ fields, ofText? text = some (.object fields) ∧ AreRead members fields := by
  rw [ofText?]
  generalize text.toList = characters at writes
  cases writes with
  | @empty before blanks after blank isBlank blankAfter =>
      refine ⟨[], ?_, .nil⟩
      rw [readValue, skipSpace_mark blank '\x7b' rfl]
      simp only [skipSpace_mark isBlank '\x7d' rfl, Option.bind_eq_bind, Option.bind_some]
      rw [← List.append_nil after, skipSpace_append blankAfter]
      rfl
  | @members _ before text after blank writes blankAfter =>
      obtain ⟨fields, read, areRead⟩ :=
        @exists_readFields_of_writesMembers _ _ writes
          (2 * (before ++ '\x7b' :: (text ++ '\x7d' :: after)).length + 1)
          (by simp only [List.length_append, List.length_cons]; omega) after
      refine ⟨fields, ?_, areRead⟩
      rw [readValue_of_readFields blank writes.isMembers read]
      simp only [Option.bind_eq_bind, Option.bind_some]
      rw [← List.append_nil after, skipSpace_append blankAfter]
      rfl

end Json

end TypedJava
