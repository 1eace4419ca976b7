import TypedJava.Settings
import TypedJava.Proofs.Json.Reading

/-! # Settings and their documents

A document that is an object overrides the standard settings with the members that name a setting, in
any order and among any other members. The document that is written for some settings gives these
settings back. -/

namespace TypedJava

namespace Settings

/-! ## Values of settings as they are written -/

/-- The value of a setting as it is written. -/
def valueText (settings : Settings) : Key → String
  | .insertConversions => toString settings.insertConversions
  | .allowWildcards => toString settings.allowWildcards
  | .maxDepth => toString settings.maxDepth.toNat

/-- The text is a value of the type that the setting has. -/
def Key.Admits : Key → String → Prop
  | .insertConversions, value | .allowWildcards, value => value = "true" ∨ value = "false"
  | .maxDepth, value => ∃ depth < 2 ^ 32, value = toString depth

theorem toString_bool_injective {first second : Bool} (same : toString first = toString second) :
    first = second := by
  cases first <;> cases second <;> first | rfl | exact absurd same (by decide)

theorem eq_of_valueText_eq
    {first second : Settings} (same : ∀ key, first.valueText key = second.valueText key) :
    first = second := by
  obtain ⟨firstInsert, firstAllow, firstDepth⟩ := first
  obtain ⟨secondInsert, secondAllow, secondDepth⟩ := second
  have sameInsert : firstInsert = secondInsert := toString_bool_injective (same .insertConversions)
  have sameAllow : firstAllow = secondAllow := toString_bool_injective (same .allowWildcards)
  have sameDepth : firstDepth = secondDepth := by
    have sameNatural := congrArg (fun text => Json.naturalOf text.toList) (same .maxDepth)
    simp only [valueText, Json.naturalOf_toString] at sameNatural
    exact UInt32.toNat_inj.mp sameNatural
  rw [sameInsert, sameAllow, sameDepth]

theorem admits_valueText (settings : Settings) (key : Key) :
    key.Admits (settings.valueText key) := by
  obtain ⟨insert, allow, depth⟩ := settings
  cases key with
  | insertConversions =>
      cases insert
      · exact Or.inr rfl
      · exact Or.inl rfl
  | allowWildcards =>
      cases allow
      · exact Or.inr rfl
      · exact Or.inl rfl
  | maxDepth =>
      exact ⟨depth.toNat, depth.toNat_lt, rfl⟩

theorem Key.text_injective {first second : Key} (same : first.text = second.text) :
    first = second := by
  cases first <;> cases second <;> first | rfl | exact absurd same (by decide)

theorem Key.ofText?_text (key : Key) : Key.ofText? key.text = some key := by
  cases key <;> decide

theorem Key.text_eq_of_ofText? {name : String} {key : Key} (named : Key.ofText? name = some key) :
    key.text = name := by
  have found := List.find?_some named
  exact eq_of_beq found

/-! ## Assignments -/

theorem exists_truth
    {value : String} {json : Json} (admits : value = "true" ∨ value = "false")
    (denotes : Json.Denotes value json) :
    ∃ truth : Bool, json = .boolean truth ∧ toString truth = value := by
  rcases admits with rfl | rfl
  · exact ⟨true, denotes.ofTrue rfl, rfl⟩
  · exact ⟨false, denotes.ofFalse rfl, rfl⟩

/-- A value of the right type is assigned to its setting. -/
theorem exists_assign?
    (settings : Settings) {key : Key} {value : String} {json : Json} (admits : key.Admits value)
    (denotes : Json.Denotes value json) :
    ∃ after, settings.assign? key json = some after ∧ after.valueText key = value := by
  cases key with
  | insertConversions =>
      obtain ⟨truth, rfl, isValue⟩ := exists_truth admits denotes
      exact ⟨{ settings with insertConversions := truth }, rfl, isValue⟩
  | allowWildcards =>
      obtain ⟨truth, rfl, isValue⟩ := exists_truth admits denotes
      exact ⟨{ settings with allowWildcards := truth }, rfl, isValue⟩
  | maxDepth =>
      obtain ⟨depth, less, rfl⟩ := admits
      have sameDepth : (UInt32.ofNat depth).toNat = depth := UInt32.toNat_ofNat_of_lt less
      rw [denotes.ofNatural depth rfl]
      exact ⟨{ settings with maxDepth := UInt32.ofNat depth }, if_pos less,
        congrArg toString sameDepth⟩

/-- An assignment to one setting leaves the others as they are. -/
theorem valueText_of_assign?
    {settings after : Settings} {key other : Key} {json : Json}
    (assigned : settings.assign? key json = some after) (different : other ≠ key) :
    after.valueText other = settings.valueText other := by
  rw [assign?.eq_def] at assigned
  split at assigned
  · cases assigned
    cases other <;> first | rfl | exact absurd rfl different
  · cases assigned
    cases other <;> first | rfl | exact absurd rfl different
  · split at assigned
    · cases assigned
      cases other <;> first | rfl | exact absurd rfl different
    · cases assigned
  · cases assigned

/-- Each setting has the value that a member gives it, or the value from before if no member names
it. -/
def IsOverridden (settings : Settings) (members : List (String × String)) (after : Settings) :
    Prop :=
  ∀ key : Key,
    (∀ value, (key.text, value) ∈ members → after.valueText key = value) ∧
      ((∀ value, (key.text, value) ∉ members) → after.valueText key = settings.valueText key)

/-- Each setting is named at most once, with a value of its type. Nothing is asked of members that
name no setting. -/
structure AreProper (members : List (String × String)) : Prop where
  once : ∀ key : Key, (members.map (·.1)).count key.text ≤ 1
  admitted : ∀ (key : Key) (value : String), (key.text, value) ∈ members → key.Admits value

theorem AreProper.tail
    {member : String × String} {members : List (String × String)}
    (proper : AreProper (member :: members)) : AreProper members where
  once := by
    intro key
    have once := proper.once key
    rw [List.map_cons, List.count_cons] at once
    omega
  admitted := fun key value mem => proper.admitted key value (List.mem_cons_of_mem _ mem)

/-- A setting that the first member names is named by no other. -/
theorem AreProper.not_mem
    {key : Key} {value : String} {members : List (String × String)}
    (proper : AreProper ((key.text, value) :: members)) : key.text ∉ members.map (·.1) := by
  have once := proper.once key
  rw [List.map_cons, List.count_cons_self] at once
  exact List.count_eq_zero.mp (by omega)

theorem mem_cons_iff {key : Key} {name value : String} {members : List (String × String)}
    (different : key.text ≠ name) (given : String) :
    (key.text, given) ∈ (name, value) :: members ↔ (key.text, given) ∈ members := by
  simp [different]

/-- A member in front that names no setting changes nothing. -/
theorem IsOverridden.cons_unknown
    {settings after : Settings} {name value : String} {members : List (String × String)}
    (overridden : settings.IsOverridden members after) (unknown : ∀ key : Key, key.text ≠ name) :
    settings.IsOverridden ((name, value) :: members) after := by
  intro key
  simp only [mem_cons_iff (unknown key)]
  exact overridden key

/-- A member in front gives its setting a value that the other members leave as it is. -/
theorem IsOverridden.cons_assigned
    {settings middle after : Settings} {key : Key} {value : String}
    {members : List (String × String)} (overridden : middle.IsOverridden members after)
    (notMember : key.text ∉ members.map (·.1)) (isValue : middle.valueText key = value)
    (others : ∀ other, other ≠ key → middle.valueText other = settings.valueText other) :
    settings.IsOverridden ((key.text, value) :: members) after := by
  intro other
  by_cases same : other = key
  · subst same
    have notGiven : ∀ given, (other.text, given) ∉ members := fun given mem =>
      notMember (List.mem_map_of_mem mem)
    refine ⟨fun given mem => ?_, fun noMember => absurd List.mem_cons_self (noMember value)⟩
    rcases List.mem_cons.mp mem with isFirst | mem
    · cases isFirst
      exact ((overridden other).2 notGiven).trans isValue
    · exact absurd mem (notGiven given)
  · have different : other.text ≠ key.text := fun sameText => same (Key.text_injective sameText)
    simp only [mem_cons_iff different, ← others other same]
    exact overridden other

/-- Fields are assigned that are read from members which are proper, after fields for other
settings. -/
theorem exists_assignFields?
    {members : List (String × String)} {fields : List (Option String × Json)}
    (areRead : Json.AreRead members fields) (proper : AreProper members) (seen : List Key)
    (unseen : ∀ key ∈ seen, key.text ∉ members.map (·.1)) (settings : Settings) :
    ∃ after, assignFields? seen settings fields = some after ∧
      settings.IsOverridden members after := by
  induction areRead generalizing seen settings with
  | nil =>
      exact ⟨settings, rfl, fun key => ⟨fun value mem => absurd mem List.not_mem_nil, fun _ => rfl⟩⟩
  | @cons member field members fields read areRead inductionHypothesis =>
      obtain ⟨name, value⟩ := member
      obtain ⟨key?, json⟩ := field
      obtain ⟨rfl, denotes⟩ := read
      have unseenLater : ∀ key ∈ seen, key.text ∉ members.map (·.1) := fun key isSeen mem =>
        unseen key isSeen (List.mem_cons_of_mem name mem)
      rw [assignFields?]
      cases named : Key.ofText? name with
      | none =>
          have unknown : ∀ key : Key, key.text ≠ name := by
            rintro key rfl
            rw [Key.ofText?_text] at named
            cases named
          obtain ⟨after, assigned, overridden⟩ :=
            inductionHypothesis proper.tail seen unseenLater settings
          exact ⟨after, assigned, overridden.cons_unknown unknown⟩
      | some key =>
          obtain rfl := Key.text_eq_of_ofText? named
          have isUnseen : seen.contains key = false := by
            by_contra isSeen
            rw [Bool.not_eq_false, List.contains_iff_mem] at isSeen
            exact unseen key isSeen List.mem_cons_self
          have admits := proper.admitted key value List.mem_cons_self
          obtain ⟨middle, assigned, isValue⟩ := exists_assign? settings admits denotes
          have others := fun other (different : other ≠ key) =>
            valueText_of_assign? assigned different
          obtain ⟨after, assignedLater, overridden⟩ :=
            inductionHypothesis proper.tail (key :: seen)
              (List.forall_mem_cons.mpr ⟨proper.not_mem, unseenLater⟩) middle
          refine ⟨after, ?_, overridden.cons_assigned proper.not_mem isValue others⟩
          simp only [isUnseen, assigned, assignedLater, Option.bind_eq_bind, Option.bind_some,
            Bool.false_eq_true, if_false]

/-- A document that is an object with proper members is read. -/
theorem exists_ofText?
    {members : List (String × String)} {text : String}
    (writes : Json.WritesObject members text.toList) (proper : AreProper members) :
    ∃ settings, ofText? text = some settings ∧ standard.IsOverridden members settings := by
  obtain ⟨fields, isRead, areRead⟩ := Json.exists_ofText?_of_writesObject writes
  obtain ⟨settings, assigned, overridden⟩ :=
    exists_assignFields? areRead proper [] (List.forall_mem_nil _) standard
  refine ⟨settings, ?_, overridden⟩
  rw [ofText?, isRead]
  exact assigned

/-! ## The document of some settings -/

/-- The members that the document of some settings has. -/
def members (settings : Settings) : List (String × String) :=
  Key.all.map fun key => (key.text, settings.valueText key)

theorem mem_members_iff (settings : Settings) (key : Key) (value : String) :
    (key.text, value) ∈ settings.members ↔ value = settings.valueText key := by
  constructor
  · intro mem
    obtain ⟨other, -, same⟩ := List.mem_map.mp mem
    obtain ⟨sameText, rfl⟩ := Prod.mk.inj same
    rw [Key.text_injective sameText]
  · rintro rfl
    exact List.mem_map_of_mem (f := fun key : Key => (key.text, settings.valueText key))
      (show key ∈ Key.all by cases key <;> decide)

theorem areProper_members (settings : Settings) : AreProper settings.members where
  once := by
    intro key
    have names : settings.members.map (·.1) = Key.all.map Key.text := rfl
    rw [names]
    cases key <;> decide
  admitted := by
    intro key value mem
    rw [(mem_members_iff settings key value).mp mem]
    exact admits_valueText settings key

/-- Settings that are overridden with all values of other settings are these. -/
theorem IsOverridden.eq_of_members
    {settings other after : Settings} (overridden : other.IsOverridden settings.members after) :
    after = settings :=
  eq_of_valueText_eq fun key =>
    (overridden key).1 _ ((mem_members_iff settings key _).mpr rfl)

theorem isValue_toString_bool (truth : Bool) : Json.IsValue (toString truth).toList := by
  cases truth
  · exact .falseWord
  · exact .trueWord

theorem isValue_toString_nat (number : Nat) : Json.IsValue (toString number).toList := by
  have isNumber : Json.IsNumber ([] ++ Nat.toDigits 10 number ++ [] ++ []) :=
    .intro List.mem_cons_self (Json.isWhole_toDigits number) .none .none
  rw [List.nil_append, List.append_nil, List.append_nil] at isNumber
  rw [Nat.toString_eq_repr, Nat.toList_repr]
  exact .number isNumber

theorem isValue_valueText (settings : Settings) : ∀ key, Json.IsValue (settings.valueText key).toList
  | .insertConversions => isValue_toString_bool settings.insertConversions
  | .allowWildcards => isValue_toString_bool settings.allowWildcards
  | .maxDepth => isValue_toString_nat settings.maxDepth.toNat

/-- The character needs no escape in a string. -/
def isPlain (character : Char) : Bool :=
  0x20 ≤ character.toNat && character != '"' && character != '\\'

theorem spells_self {characters : List Char} (plain : characters.all isPlain = true) :
    Json.Spells characters characters := by
  induction characters with
  | nil =>
      exact .nil
  | cons character characters inductionHypothesis =>
      rw [List.all_cons, Bool.and_eq_true] at plain
      obtain ⟨first, others⟩ := plain
      simp only [isPlain, Bool.and_eq_true, decide_eq_true_eq, bne_iff_ne] at first
      exact .cons (.plain first.1.1 first.1.2 first.2) (inductionHypothesis others)

theorem spells_text (key : Key) : Json.Spells key.text.toList key.text.toList :=
  spells_self (by cases key <;> decide)

/-- The blanks around a setting in a document of settings, before a given end of its line. -/
def lineSpacing (afterValue : List Char) : Json.Spacing where
  beforeName := ['\n', ' ', ' ']
  beforeColon := []
  beforeValue := [' ']
  afterValue := afterValue

theorem isBlank_lineSpacing {afterValue : List Char} (blank : Json.IsBlank afterValue) :
    (lineSpacing afterValue).IsBlank where
  beforeName := by
    simp [Json.IsBlank, lineSpacing]
  beforeColon := List.forall_mem_nil _
  beforeValue := List.forall_mem_singleton.mpr List.mem_cons_self
  afterValue := blank

/-- The line of one setting. -/
def line (settings : Settings) (key : Key) (afterValue : List Char) : List Char :=
  (lineSpacing afterValue).member key.text.toList (settings.valueText key).toList

theorem text_toList (settings : Settings) :
    settings.text.toList = [] ++ '\x7b' ::
      (settings.line .insertConversions [] ++ ',' :: (settings.line .allowWildcards [] ++ ',' ::
        settings.line .maxDepth ['\n']) ++ '\x7d' :: []) := by
  simp [text, fieldText, line, Json.Spacing.member, lineSpacing, valueText, String.toList_append]

/-- The document of some settings is an object that has their values as its members. -/
theorem writesObject_text (settings : Settings) :
    Json.WritesObject settings.members settings.text.toList := by
  have noBlank : Json.IsBlank [] := List.forall_mem_nil _
  have lineEnd : Json.IsBlank ['\n'] := List.forall_mem_singleton.mpr (by simp)
  have lineBlank := isBlank_lineSpacing noBlank
  have lastBlank := isBlank_lineSpacing lineEnd
  rw [text_toList]
  exact .members noBlank
    (.cons lineBlank (spells_text .insertConversions) (isValue_valueText settings .insertConversions)
      (.cons lineBlank (spells_text .allowWildcards) (isValue_valueText settings .allowWildcards)
        (.last lastBlank (spells_text .maxDepth) (isValue_valueText settings .maxDepth)))) noBlank

/-! ## Documents -/

/-- The document of some settings gives these settings back. A document that is an object, in which
each setting is named at most once and with a value of its type, is read as the standard settings with
the values that it names; members with other names may stand anywhere in it, more than once and with
values of any kind. -/
theorem text_read_back_and_documents_override :
    (∀ settings : Settings, ofText? settings.text = some settings) ∧
      ∀ (members : List (String × String)) (text : String),
        Json.WritesObject members text.toList → AreProper members →
          ∃ settings, ofText? text = some settings ∧ standard.IsOverridden members settings := by
  constructor
  · intro settings
    obtain ⟨after, isRead, overridden⟩ :=
      exists_ofText? (writesObject_text settings) (areProper_members settings)
    rw [isRead, overridden.eq_of_members]
  · intro members text writes proper
    exact exists_ofText? writes proper

/-- Members of a document. Of the settings the last and the first are named, and another name stands
twice. -/
def strayMembers : List (String × String) :=
  [("stray", "[\x7b\x7d]"), ("maxTransformDepth", "7"), ("stray", "null"),
    ("insertNecessaryConversions", "false")]

/-- A document with these members, one of whose names is written with an escape. -/
def strayText : String :=
  "\x7b\"stray\":[\x7b\x7d],\"maxTransformDepth\":7,\"\\u0073tray\":null," ++
    "\"insertNecessaryConversions\":false\x7d"

theorem documents_override_in_strayText :
    Json.WritesObject strayMembers strayText.toList ∧ AreProper strayMembers ∧
      ofText? strayText =
        some { insertConversions := false, allowWildcards := true, maxDepth := 7 } := by
  have noBlank : Json.IsBlank [] := List.forall_mem_nil _
  have tight : Json.Spacing.IsBlank ⟨[], [], [], []⟩ := ⟨noBlank, noBlank, noBlank, noBlank⟩
  have plain : Json.Spells "stray".toList "stray".toList := spells_self (by decide)
  have escaped : Json.Spells "stray".toList "\\u0073tray".toList := by
    have digits : Json.SpellsUnit (((0 * 16 + 0) * 16 + 7) * 16 + 3) ['\\', 'u', '0', '0', '7', '3'] :=
      .unicode (.inl rfl) (.inl rfl) (.inl rfl) (.inl rfl)
    have letter : Json.SpellsUnit 's'.toNat ['\\', 'u', '0', '0', '7', '3'] := digits
    exact .cons letter (spells_self (by decide))
  have nested : Json.IsValue "[\x7b\x7d]".toList :=
    .array (.last noBlank (.emptyObject noBlank) noBlank)
  have unset : Json.IsValue "null".toList := .nullWord
  have depth : Json.IsValue "7".toList := isValue_toString_nat 7
  have insert : Json.IsValue "false".toList := .falseWord
  have writes : Json.WritesObject strayMembers strayText.toList :=
    .members noBlank (.cons tight plain nested (.cons tight (spells_text .maxDepth) depth
      (.cons tight escaped unset (.last tight (spells_text .insertConversions) insert)))) noBlank
  have proper : AreProper strayMembers := by
    constructor
    · rintro (_ | _ | _) <;> decide
    · intro key value mem
      cases key with
      | insertConversions =>
          have given : value = "false" := by simpa [strayMembers, Key.text] using mem
          exact .inr given
      | allowWildcards =>
          simp [strayMembers, Key.text] at mem
      | maxDepth =>
          have given : value = "7" := by simpa [strayMembers, Key.text] using mem
          exact ⟨7, by decide, given⟩
  obtain ⟨settings, isRead, overridden⟩ :=
    text_read_back_and_documents_override.2 strayMembers strayText writes proper
  have isResult : settings = { insertConversions := false, allowWildcards := true, maxDepth := 7 } := by
    refine eq_of_valueText_eq fun key => ?_
    cases key with
    | insertConversions =>
        exact (overridden .insertConversions).1 "false" (by decide)
    | allowWildcards =>
        exact (overridden .allowWildcards).2 (by simp [strayMembers, Key.text])
    | maxDepth =>
        exact (overridden .maxDepth).1 "7" (by decide)
  exact ⟨writes, proper, isResult ▸ isRead⟩

end Settings

end TypedJava
