import TypedJava.Proofs.TypeSyntax.Depiction
import TypedJava.Tree.Render

/-! # The text of written types

A type has a text of its own, and so has the syntax that is written for it. The two texts are the
same, whatever the type is built from: the dimensions of an array share one node of the syntax, and
each of them still shows. -/

namespace TypedJava

namespace Ty

/-- A type given by a kind that no keyword names. -/
def isUnnamedKind : Ty → Bool
  | primitive kind => kind.keyword?.isNone
  | _ => false

/-- A type whose text is not that of its syntax: no keyword names it, or it is the type of the null
literal, for which the root class is written. -/
def lacksSyntax (type : Ty) : Bool :=
  type.isUnnamedKind || type.isNull

variable {catalog : Catalog} {options : TypeSyntaxOptions}

mutual

/-- The written form of a type has syntax at every depth, because a class stands for the null
type. -/
theorem contains_lacksSyntax_writable :
    (type : Ty) → (topLevel : Bool) → type.contains isUnnamedKind = false →
      (type.writable catalog options topLevel).contains lacksSyntax = false
  | classType definition arguments, topLevel, named => by
      rw [contains, Bool.or_eq_false_iff] at named
      rw [writable]
      split
      · rw [contains, containsInAny_lacksSyntax_writableList arguments named.2]
        rfl
      · rfl
  | array element, topLevel, named => by
      rw [contains, Bool.or_eq_false_iff] at named
      rw [writable, contains, contains_lacksSyntax_writable element false named.2]
      rfl
  | upperWildcard upper, topLevel, named => by
      rw [contains, Bool.or_eq_false_iff] at named
      rw [writable]
      split
      · rw [contains, contains_lacksSyntax_writable upper false named.2]
        rfl
      · exact contains_lacksSyntax_writable upper topLevel named.2
  | lowerWildcard lower, topLevel, named => by
      rw [contains, Bool.or_eq_false_iff] at named
      rw [writable]
      split
      · rw [contains, contains_lacksSyntax_writable lower false named.2]
        rfl
      · rfl
  | unboundedWildcard, topLevel, _ => by
      rw [writable]
      split <;> rfl
  | primitive kind, topLevel, named => by
      rw [contains] at named
      rw [writable, contains, lacksSyntax, named]
      rfl
  | typeVariable id bound, topLevel, _ => rfl
  | null, topLevel, _ => rfl

theorem containsInAny_lacksSyntax_writableList :
    (types : List Ty) → containsInAny isUnnamedKind types = false →
      containsInAny lacksSyntax (writableList catalog options types) = false
  | [], _ => rfl
  | type :: types, named => by
      rw [containsInAny, Bool.or_eq_false_iff] at named
      rw [writableList, containsInAny, contains_lacksSyntax_writable type false named.1,
        containsInAny_lacksSyntax_writableList types named.2]
      rfl

end

/-- Every dimension of an array adds a pair of brackets to the text. -/
theorem text_arrayOf (className : DefinitionId → String) (type : Ty) (rank : Nat) :
    (type.arrayOf rank).text className = type.text className ++ repeatText "[]" rank := by
  induction rank generalizing type with
  | zero =>
      exact String.append_empty.symm
  | succ rank inductionHypothesis =>
      rw [← arrayOf_array, inductionHypothesis, text, repeatText, String.append_assoc]

theorem joinTexts_map_text (className : DefinitionId → String) (type : Ty) (types : List Ty) :
    joinTexts ", " ((type :: types).map (text className)) =
      type.text className ++ restText className types := by
  induction types generalizing type with
  | nil =>
      exact String.append_empty.symm
  | cons next types inductionHypothesis =>
      rw [List.map_cons, List.map_cons, joinTexts, ← List.map_cons, inductionHypothesis, restText]
      simp only [String.append_assoc]

end Ty

namespace Tree

/-- The dimensions around a node show after its text. -/
theorem render_finished (type : Ty) (rank : Nat) (payload : Payload) (slots : List (Slot Tree)) :
    (finished type rank payload slots).render =
      payload.render (renderSlots slots) ++ repeatText "[]" rank := by
  cases rank with
  | zero =>
      exact String.append_empty.symm
  | succ rank =>
      rfl

mutual

/-- The syntax of a type, with dimensions around it, shows the text of the array type. -/
theorem render_spelledWithin (catalog : Catalog) :
    (type : Ty) → (rank : Nat) → type.contains Ty.lacksSyntax = false →
      (type.spelledWithin catalog rank).render =
        (type.arrayOf rank).text catalog.simpleName
  | .array element, rank, spelled => by
      rw [Ty.contains, Bool.or_eq_false_iff] at spelled
      rw [Ty.spelledWithin, Ty.arrayOf_array]
      exact render_spelledWithin catalog element (rank + 1) spelled.2
  | .primitive kind, rank, spelled => by
      have named : kind.keyword?.isSome = true := by
        simpa [Ty.contains, Ty.lacksSyntax, Ty.isUnnamedKind, Ty.isNull] using spelled
      obtain ⟨word, isKeyword⟩ := Option.isSome_iff_exists.mp named
      rw [Ty.spelledWithin, render_finished, Ty.text_arrayOf, Ty.text, isKeyword]
      exact congrArg (· ++ _) String.append_empty
  | .classType definition [], rank, _ => by
      rw [Ty.spelledWithin, render_finished, Ty.text_arrayOf, Ty.text]
      exact congrArg (· ++ _) String.append_empty
  | .classType definition (argument :: arguments), rank, spelled => by
      rw [Ty.contains, Bool.or_eq_false_iff] at spelled
      have texts := renderAll_spelledAll catalog (argument :: arguments) spelled.2
      have applied : Payload.render (.simpleType (catalog.simpleName definition))
          (renderSlots [⟨.typeArgument, Ty.spelledAll catalog (argument :: arguments)⟩]) =
          catalog.simpleName definition ++ ("<" ++
            joinTexts ", " (renderAll (Ty.spelledAll catalog (argument :: arguments))) ++ ">") :=
        rfl
      rw [Ty.spelledWithin, render_finished, Ty.text_arrayOf, Ty.text, applied, texts,
        Ty.joinTexts_map_text]
      simp only [String.append_assoc]
  | .typeVariable id bound, rank, _ => by
      rw [Ty.spelledWithin, render_finished, Ty.text_arrayOf, Ty.text]
      exact congrArg (· ++ _) String.append_empty
  | .unboundedWildcard, rank, _ => by
      rw [Ty.spelledWithin, render_finished, Ty.text_arrayOf]
      rfl
  | .upperWildcard upper, rank, spelled => by
      rw [Ty.contains, Bool.or_eq_false_iff] at spelled
      have bound : (upper.spelledWithin catalog 0).render = upper.text catalog.simpleName :=
        render_spelledWithin catalog upper 0 spelled.2
      rw [Ty.spelledWithin, render_finished, Ty.text_arrayOf, Ty.text, ← bound]
      rfl
  | .lowerWildcard lower, rank, spelled => by
      rw [Ty.contains, Bool.or_eq_false_iff] at spelled
      have bound : (lower.spelledWithin catalog 0).render = lower.text catalog.simpleName :=
        render_spelledWithin catalog lower 0 spelled.2
      rw [Ty.spelledWithin, render_finished, Ty.text_arrayOf, Ty.text, ← bound]
      rfl
  | .null, rank, spelled => by cases spelled

theorem renderAll_spelledAll (catalog : Catalog) :
    (types : List Ty) → Ty.containsInAny Ty.lacksSyntax types = false →
      renderAll (Ty.spelledAll catalog types) = types.map (Ty.text catalog.simpleName)
  | [], _ => rfl
  | type :: types, spelled => by
      rw [Ty.containsInAny, Bool.or_eq_false_iff] at spelled
      have first : (type.spelledWithin catalog 0).render = type.text catalog.simpleName :=
        render_spelledWithin catalog type 0 spelled.1
      rw [Ty.spelledAll, renderAll, first, renderAll_spelledAll catalog types spelled.2,
        List.map_cons]

end

end Tree

namespace Edit

/-- Writing a type always succeeds, and if keywords name all kinds in the type, the new syntax shows
the text of the type that it is annotated with. -/
theorem mkType_showsText
    {store : Store} (wellFormed : store.WellFormed) (catalog : Catalog)
    (options : TypeSyntaxOptions) {type : Ty} (named : type.contains Ty.isUnnamedKind = false) :
    ∃ node changed written, (mkType catalog options type).run store = (.ok node, changed) ∧
      changed.type? (some node) = some written ∧
      written = type.writable catalog options true ∧
      Tree.renderRoot (changed.tree? (some node)) = written.text catalog.simpleName := by
  obtain ⟨branch, changed, run, becomes, isWritten, spelled⟩ :=
    Branch.run_mkType catalog options type wellFormed
  have held := becomes.hosted.held
  refine ⟨branch.id, changed, type.writable catalog options true, run, ?_, rfl, ?_⟩
  · rw [held.type?_eq]
    cases isWritten
    rfl
  · rw [held.tree?_eq becomes.wellFormed, Tree.renderRoot, spelled]
    exact Tree.render_spelledWithin catalog _ 0 (Ty.contains_lacksSyntax_writable type true named)

/-- An array of a class that is not registered, applied to a wildcard over comparables of arrays of
arrays of a type variable, to a wildcard and to the null type. -/
theorem mkType_showsText_of_unregistered :
    let catalog := Catalog.standard
    let type : Ty := .array (.classType ⟨99⟩ [.upperWildcard (.classType ⟨4⟩
      [.array (.array (.typeVariable ⟨"T", none⟩ none))]), .unboundedWildcard, .null])
    type.contains Ty.isUnnamedKind = false ∧
      ∃ node changed written, (mkType catalog .standard type).run .empty = (.ok node, changed) ∧
        changed.type? (some node) = some written ∧
        Tree.renderRoot (changed.tree? (some node)) = written.text catalog.simpleName ∧
        written.text catalog.simpleName =
          "<unknown DefId(99)><? extends Comparable<T[][]>, ?, Object>[]" := by
  intro catalog type
  have named : type.contains Ty.isUnnamedKind = false := rfl
  obtain ⟨node, changed, written, run, annotated, isWritten, shown⟩ :=
    mkType_showsText Store.wellFormed_empty catalog .standard named
  refine ⟨named, node, changed, written, run, annotated, shown, ?_⟩
  rw [isWritten]
  decide +kernel

end Edit

end TypedJava
