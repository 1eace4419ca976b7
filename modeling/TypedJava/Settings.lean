import TypedJava.Json

/-! # Settings

What a run of the passes may do, read from and written to a JSON document. -/

namespace TypedJava

/-- The settings of a run. -/
structure Settings where
  /-- Run the pass that inserts conversions. -/
  insertConversions : Bool
  /-- Write wildcard type arguments in the types of casts. -/
  allowWildcards : Bool
  /-- The number of nested visits after which a pass stops descending. -/
  maxDepth : UInt32
  deriving DecidableEq, Repr

namespace Settings

/-- The settings that hold where a document says nothing. -/
def standard : Settings where
  insertConversions := true
  allowWildcards := true
  maxDepth := 500

/-- One setting, with the key that names it in a document. -/
inductive Key where
  | insertConversions | allowWildcards | maxDepth
  deriving DecidableEq, Repr

/-- The spelling of a key. -/
def Key.text : Key → String
  | insertConversions => "insertNecessaryConversions"
  | allowWildcards => "allowWildcardsInCasts"
  | maxDepth => "maxTransformDepth"

/-- The keys, in the order in which they are written. -/
def Key.all : List Key :=
  [insertConversions, allowWildcards, maxDepth]

/-- The key that a text spells. -/
def Key.ofText? (text : String) : Option Key :=
  all.find? fun key => key.text == text

/-- Gives one setting a value, which must be of the right type. -/
def assign? (settings : Settings) : Key → Json → Option Settings
  | .insertConversions, .boolean value => some { settings with insertConversions := value }
  | .allowWildcards, .boolean value => some { settings with allowWildcards := value }
  | .maxDepth, .number (some value) =>
    if value < Nat.pow 2 32 then some { settings with maxDepth := UInt32.ofNat value } else none
  | _, _ => none

/-- Applies the fields of an object from left to right. A key that names no setting is passed over
with its value; one that names a setting for the second time is refused. -/
def assignFields? : List Key → Settings → List (Option String × Json) → Option Settings
  | _, settings, [] => some settings
  | _, _, (none, _) :: _ => none
  | seen, settings, (some text, value) :: fields =>
    match Key.ofText? text with
    | none => assignFields? seen settings fields
    | some key =>
      if seen.contains key then none
      else do
        let settings ← settings.assign? key value
        assignFields? (key :: seen) settings fields

/-- Applies the items of an array to the settings in the order of their keys. -/
def assignItems? : List Key → Settings → List Json → Option Settings
  | _, settings, [] => some settings
  | [], _, _ :: _ => none
  | key :: keys, settings, item :: items => do
    let settings ← settings.assign? key item
    assignItems? keys settings items

/-- The settings that a document describes, as an object or as the list of its values. -/
def ofJson? : Json → Option Settings
  | .object fields => assignFields? [] standard fields
  | .array items => assignItems? Key.all standard items
  | _ => none

/-- Reads settings from the text of a document. -/
def ofText? (text : String) : Option Settings :=
  (Json.ofText? text).bind ofJson?

/-- The written form of one setting. -/
def fieldText (key : Key) (value : String) : String :=
  "  \"" ++ key.text ++ "\": " ++ value

/-- The document of the settings, one setting a line. -/
def text (settings : Settings) : String :=
  "\x7b\n" ++ fieldText .insertConversions (toString settings.insertConversions) ++ ",\n" ++
    fieldText .allowWildcards (toString settings.allowWildcards) ++ ",\n" ++
    fieldText .maxDepth (toString settings.maxDepth.toNat) ++ "\n\x7d"

end Settings

end TypedJava
