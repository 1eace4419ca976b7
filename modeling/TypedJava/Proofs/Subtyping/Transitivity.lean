import TypedJava.Proofs.Subtyping.Hidden

/-! # Transitivity

Subtyping is transitive on applied types whose wildcards stand at exposed parameters. The proof is
an induction on the fuel that the two given answers took together: a chain of two steps is cut down
to shorter chains between the arguments of views. The argument breaks down at a parameter that is
not exposed. Its argument ends up inside of another argument, where only equal types are contained.
-/

namespace TypedJava

/-- Lists that are related item by item to the same list are related to each other. -/
theorem forall₂_comp
    {first second third : Type} {before : first → second → Prop} {after : second → third → Prop}
    {joint : first → third → Prop} {firsts : List first} {seconds : List second}
    {thirds : List third} (befores : List.Forall₂ before firsts seconds)
    (afters : List.Forall₂ after seconds thirds)
    (join : ∀ a ∈ firsts, ∀ b ∈ seconds, ∀ c ∈ thirds, before a b → after b c → joint a c) :
    List.Forall₂ joint firsts thirds := by
  induction befores generalizing thirds with
  | nil =>
      cases afters
      exact .nil
  | cons head _ inductionHypothesis =>
      cases afters with
      | cons otherHead others =>
          refine .cons (join _ List.mem_cons_self _ List.mem_cons_self _ List.mem_cons_self head
            otherHead) (inductionHypothesis others fun a inFirsts b inSeconds c inThirds => ?_)
          exact join a (List.mem_cons_of_mem _ inFirsts) b (List.mem_cons_of_mem _ inSeconds) c
            (List.mem_cons_of_mem _ inThirds)

namespace Catalog

/-- Some fuel is enough to tell that a type is a subtype of another one. -/
def IsBelow (catalog : Catalog) (type base : Ty) : Prop :=
  ∃ fuel, catalog.isSubtypeWithin fuel type base = true

section Object

variable {catalog : Catalog} {exposed : VarId → Bool} {bounds : VarId → Option Ty}
  {type base : Ty} {fuel : Nat} {formals : List Ty}

/-- Every proper type is below the root class. -/
theorem IsProper.isBelow_object
    (proper : catalog.IsProper exposed bounds false type) (registered : catalog.Registered)
    (orderly : catalog.Orderly) (table : catalog.HasProperBounds exposed bounds)
    (objectProper :
      catalog.IsProper exposed bounds false (.classType catalog.core.object formals)) :
    catalog.IsBelow type (.classType catalog.core.object formals) := by
  induction type using Ty.spineInduction with
  | classType id arguments =>
      exact ⟨1, proper.isSubtypeWithin_of_step registered orderly objectProper (.object _ _ _)⟩
  | openVariable id =>
      have ceilingProper := proper.ceiling registered table
      exact ⟨2, proper.isSubtypeWithin_of_step registered orderly objectProper (.ceiling
        (ceilingProper.isSubtypeWithin_of_step registered orderly objectProper (.object _ _ _)))⟩
  | boundVariable id bound inductionHypothesis =>
      obtain ⟨fuel, below⟩ := inductionHypothesis (proper.ceiling registered table)
      exact ⟨fuel + 1,
        proper.isSubtypeWithin_of_step registered orderly objectProper (.ceiling below)⟩
  | array element =>
      exact ⟨1, isSubtypeWithin_aboveArrays (by simp [isAboveArrays]) _ _ _⟩
  | _ => cases proper.applied

/-- Only the root class is above the root class. -/
theorem IsProper.exists_of_object_isSubtypeWithin
    (proper : catalog.IsProper exposed bounds false base) (orderly : catalog.Orderly)
    (exposes : catalog.Exposes exposed)
    (objectProper :
      catalog.IsProper exposed bounds false (.classType catalog.core.object formals))
    (below : catalog.isSubtypeWithin fuel (.classType catalog.core.object formals) base = true) :
    ∃ others, base = .classType catalog.core.object others := by
  cases fuel with
  | zero => cases below
  | succ fuel =>
      generalize isObject : catalog.core.object = object at below objectProper
      cases objectProper.referenceStep orderly exposes proper below with
      | same => exact ⟨formals, rfl⟩
      | object =>
          rw [isObject]
          exact ⟨_, rfl⟩
      | view _ ascent _ =>
          subst isObject
          cases ascent with
          | here => exact ⟨_, rfl⟩
          | up member =>
              rw [immediateSupertypes, classSupertypes, if_pos rfl] at member
              cases member

end Object

/-! ## Chains of two steps -/

/-- Two steps that take given amounts of fuel make up one. -/
def Joins (catalog : Catalog) (exposed : VarId → Bool) (bounds : VarId → Option Ty)
    (fuel more : Nat) : Prop :=
  ∀ {type middle base}, catalog.IsProper exposed bounds false type →
    catalog.IsProper exposed bounds false middle → catalog.IsProper exposed bounds false base →
    catalog.isSubtypeWithin fuel type middle = true →
    catalog.isSubtypeWithin more middle base = true → catalog.IsBelow type base

section Chains

variable {catalog : Catalog} {exposed : VarId → Bool} {bounds : VarId → Option Ty}
  {type middle base : Ty} {fuel more : Nat}
  (registered : catalog.Registered) (orderly : catalog.Orderly)
  (exposes : catalog.Exposes exposed) (table : catalog.HasProperBounds exposed bounds)

include registered orderly exposes table

/-- Containment of arguments is transitive where the subtype relation is. Below lower bounds the two
steps change places. -/
theorem IsProper.containsArgument_trans
    {formal middle actual : Ty} (joins : catalog.Joins exposed bounds fuel more)
    (joinsBack : catalog.Joins exposed bounds more fuel)
    (formalProper : catalog.IsProper exposed bounds true formal)
    (middleProper : catalog.IsProper exposed bounds true middle)
    (actualProper : catalog.IsProper exposed bounds true actual)
    (formalContains :
      catalog.containsArgument (catalog.isSubtypeWithin more) formal middle = true)
    (middleContains :
      catalog.containsArgument (catalog.isSubtypeWithin fuel) middle actual = true) :
    ∃ enough, catalog.containsArgument (catalog.isSubtypeWithin enough) formal actual = true := by
  by_cases same : (middle == actual) = true
  · rw [← middleProper.boundBy.eq_of_beq actualProper.boundBy same]
    exact ⟨more, formalContains⟩
  by_cases sameFormal : (formal == middle) = true
  · rw [formalProper.boundBy.eq_of_beq middleProper.boundBy sameFormal]
    exact ⟨fuel, middleContains⟩
  rw [containsArgument_eq, Bool.or_eq_true] at formalContains middleContains
  replace formalContains := formalContains.resolve_left sameFormal
  replace middleContains := middleContains.resolve_left same
  have ceilingProper := actualProper.argumentCeiling registered
  have objectProper : catalog.IsProper exposed bounds false catalog.objectType :=
    registered.isProper_objectType
  suffices contains : ∃ enough, catalog.wildcardContains (catalog.isSubtypeWithin enough) formal
      actual = true by
    obtain ⟨enough, contains⟩ := contains
    exact ⟨enough, by rw [containsArgument_eq, contains, Bool.or_true]⟩
  cases formal with
  | unboundedWildcard => exact ⟨0, rfl⟩
  | upperWildcard upper =>
      -- A middle wildcard without an upper bound stands for the root class.
      have aboveObject (isAbove : catalog.isSubtypeWithin more catalog.objectType upper = true) :
          catalog.IsBelow (catalog.argumentCeiling actual) upper := by
        obtain ⟨formals, rfl⟩ := formalProper.upper.exists_of_object_isSubtypeWithin orderly
          exposes objectProper isAbove
        exact ceilingProper.isBelow_object registered orderly table formalProper.upper
      cases middle with
      | upperWildcard middleUpper =>
          exact joins ceilingProper middleProper.upper formalProper.upper middleContains
            formalContains
      | unboundedWildcard => exact aboveObject formalContains
      | lowerWildcard lower => exact aboveObject formalContains
      | _ => cases middleContains
  | lowerWildcard lower =>
      cases middle with
      | lowerWildcard middleLower =>
          obtain ⟨floor, found, below⟩ := (Option.any_eq_true _ _).mp middleContains
          obtain ⟨enough, lowerBelow⟩ := joinsBack formalProper.lower middleProper.lower
            (actualProper.argumentFloor found) formalContains below
          exact ⟨enough, (Option.any_eq_true _ _).mpr ⟨floor, found, lowerBelow⟩⟩
      | unboundedWildcard => cases formalContains
      | upperWildcard upper => cases formalContains
      | _ => cases middleContains
  | _ => cases formalContains

/-- Contained arguments stay contained with more fuel, so one amount of fuel is enough for a list.
-/
theorem exists_forall₂_containsArgument
    {formals actuals : List Ty}
    (all : List.Forall₂ (fun formal actual => ∃ enough,
      catalog.containsArgument (catalog.isSubtypeWithin enough) formal actual = true)
      formals actuals)
    (formalsProper : ∀ formal ∈ formals, catalog.IsProper exposed bounds true formal)
    (actualsProper : ∀ actual ∈ actuals, catalog.IsProper exposed bounds true actual) :
    ∃ enough, ∀ more, enough ≤ more → List.Forall₂ (fun formal actual =>
      catalog.containsArgument (catalog.isSubtypeWithin more) formal actual = true)
      formals actuals := by
  induction all with
  | nil => exact ⟨0, fun _ _ => .nil⟩
  | @cons formal actual formals actuals contains _ inductionHypothesis =>
      obtain ⟨first, contains⟩ := contains
      obtain ⟨rest, restContain⟩ := inductionHypothesis
        (fun formal member => formalsProper formal (List.mem_cons_of_mem _ member))
        (fun actual member => actualsProper actual (List.mem_cons_of_mem _ member))
      refine ⟨max first rest, fun more le => .cons ?_ (restContain more (by omega))⟩
      exact containsArgument_of_imp registered
        (fun _ _ typeProper baseProper below =>
          typeProper.isSubtypeWithin_of_le registered orderly exposes table baseProper below
            (by omega))
        (formalsProper formal List.mem_cons_self) (actualsProper actual List.mem_cons_self) contains

/-- The view of a use as a middle class, followed by a view of a use of that class. -/
theorem IsProper.isBelow_of_views
    {id middleId target : DefinitionId}
    {arguments middleArguments formals actuals middleActuals : List Ty} {steps middleSteps : Nat}
    (joins : catalog.Joins exposed bounds fuel more)
    (joinsBack : catalog.Joins exposed bounds more fuel)
    (typeProper : catalog.IsProper exposed bounds false (.classType id arguments))
    (middleProper : catalog.IsProper exposed bounds false (.classType middleId middleArguments))
    (baseProper : catalog.IsProper exposed bounds false (.classType target formals))
    (ascent : catalog.Ascends steps (.classType id arguments) (.classType middleId actuals))
    (contains : List.Forall₂ (fun formal actual =>
      catalog.containsArgument (catalog.isSubtypeWithin fuel) formal actual = true)
      middleArguments actuals)
    (middleAscent : catalog.Ascends middleSteps (.classType middleId middleArguments)
      (.classType target middleActuals))
    (middleContains : List.Forall₂ (fun formal actual =>
      catalog.containsArgument (catalog.isSubtypeWithin more) formal actual = true)
      formals middleActuals) :
    catalog.IsBelow (.classType id arguments) (.classType target formals) := by
  have declares := orderly.declaresUses
  have actualsProper := typeProper.of_ascends exposes declares ascent
  have middleActualsProper := middleProper.of_ascends exposes declares middleAscent
  obtain ⟨view, viewAscent, viewContained⟩ := middleProper.exists_view_of_contains exposes declares
    actualsProper contains middleAscent
  have viewProper := actualsProper.of_ascends exposes declares viewAscent
  have viewInBase := forall₂_comp middleContains viewContained
    fun formal isFormal middle isMiddle actual isActual =>
      IsProper.containsArgument_trans registered orderly exposes table joins joinsBack
        (baseProper.of_mem isFormal) (middleActualsProper.of_mem isMiddle)
        (viewProper.of_mem isActual)
  obtain ⟨enough, allContained⟩ := exists_forall₂_containsArgument registered orderly exposes table
    viewInBase (fun _ => baseProper.of_mem) (fun _ => viewProper.of_mem)
  have less : steps + middleSteps < max enough (steps + middleSteps + 1) := by omega
  exact ⟨_, typeProper.isSubtypeWithin_of_step registered orderly baseProper
    (.view less (ascent.trans viewAscent) (allContained _ (Nat.le_max_left _ _)))⟩

/-- The induction is on the fuel of both steps, because they change places below lower bounds. -/
theorem joins (fuel more : Nat) : catalog.Joins exposed bounds fuel more := by
  generalize isTotal : fuel + more = total
  induction total using Nat.strongRecOn generalizing fuel more with
  | ind total inductionHypothesis =>
  intro type middle base typeProper middleProper baseProper below middleBelow
  cases fuel with
  | zero => cases below
  | succ fuel =>
  cases more with
  | zero => cases middleBelow
  | succ more =>
  have middleStep := middleProper.referenceStep orderly exposes baseProper middleBelow
  cases typeProper.referenceStep orderly exposes middleProper below with
  | same => exact ⟨_, middleBelow⟩
  | ceiling ceilingBelow =>
      obtain ⟨enough, ceilingBelowBase⟩ := inductionHypothesis _ (by omega) fuel (more + 1) rfl
        (typeProper.ceiling registered table) middleProper baseProper ceilingBelow middleBelow
      exact ⟨enough + 1, typeProper.isSubtypeWithin_of_step registered orderly baseProper
        (.ceiling ceilingBelowBase)⟩
  | elements notPrimitive middleNotPrimitive elementBelow =>
      cases middleStep with
      | same => exact ⟨_, below⟩
      | elements _ baseNotPrimitive middleElementBelow =>
          obtain ⟨enough, elementBelowBase⟩ := inductionHypothesis _ (by omega) fuel more rfl
            (typeProper.element notPrimitive) (middleProper.element middleNotPrimitive)
            (baseProper.element baseNotPrimitive) elementBelow middleElementBelow
          exact ⟨enough + 1, isSubtypeWithin_array notPrimitive baseNotPrimitive elementBelowBase⟩
      | aboveArrays _ _ isAbove => exact ⟨1, isSubtypeWithin_aboveArrays isAbove _ _ _⟩
  | @aboveArrays id element arguments isAbove =>
      cases middleStep with
      | same => exact ⟨_, below⟩
      | object => exact ⟨1, isSubtypeWithin_aboveArrays (by simp [isAboveArrays]) _ _ _⟩
      | view _ ascent _ =>
          -- Whatever is above a class above all arrays is such a class again.
          have isRaw : arguments = [] := by
            have arity := middleProper.length_arguments
            rw [registered.parameterIds_eq_nil isAbove] at arity
            exact List.length_eq_zero_iff.mp arity
          subst isRaw
          rcases registered.capsArrays.isArrayLike_of_ascends ascent (Or.inr ⟨id, rfl, isAbove⟩) with
            isArray | ⟨target, same, targetIsAbove⟩
          · cases isArray
          · cases same
            exact ⟨1, isSubtypeWithin_aboveArrays targetIsAbove _ _ _⟩
  | object =>
      obtain ⟨formals, rfl⟩ := baseProper.exists_of_object_isSubtypeWithin orderly exposes
        middleProper middleBelow
      exact ⟨1, typeProper.isSubtypeWithin_of_step registered orderly baseProper (.object _ _ _)⟩
  | view _ ascent contains =>
      cases middleStep with
      | same => exact ⟨_, below⟩
      | object =>
          exact ⟨1,
            typeProper.isSubtypeWithin_of_step registered orderly baseProper (.object _ _ _)⟩
      | view _ middleAscent middleContains =>
          exact typeProper.isBelow_of_views registered orderly exposes table
            (inductionHypothesis _ (by omega) fuel more rfl)
            (inductionHypothesis _ (by omega) more fuel rfl) middleProper baseProper ascent contains
            middleAscent middleContains

end Chains

/-- Subtyping is transitive on applied types whose wildcards stand at exposed parameters, provided
that a variable carries the same bound everywhere and that the limit on steps decides nothing. -/
theorem isSubtype_trans
    {catalog : Catalog} {exposed : VarId → Bool} {bounds : VarId → Option Ty}
    (registered : catalog.Registered) (orderly : catalog.Orderly)
    (exposes : catalog.Exposes exposed) (table : catalog.HasProperBounds exposed bounds)
    {type middle base : Ty} (typeProper : catalog.IsProper exposed bounds false type)
    (middleProper : catalog.IsProper exposed bounds false middle)
    (baseProper : catalog.IsProper exposed bounds false base)
    (withinLimit : ∀ fuel, catalog.isSubtypeWithin fuel type base = true →
      catalog.isSubtype type base = true)
    (below : catalog.isSubtype type middle = true)
    (middleBelow : catalog.isSubtype middle base = true) :
    catalog.isSubtype type base = true := by
  obtain ⟨fuel, belowBase⟩ := joins registered orderly exposes table _ _ typeProper middleProper
    baseProper below middleBelow
  exact withinLimit fuel belowBase

/-- A catalog in which `Nest<T>` implements `Comparable<Comparable<T>>` and `Shelf<E, K>` implements
`Source<E>` and `Nest<K>`. -/
def nested : Catalog :=
  let own (name : String) (owner : Nat) : Ty := .typeVariable ⟨name, some ⟨owner⟩⟩ none
  let comparable (type : Ty) : Ty := .classType ⟨4⟩ [type]
  let nest := fun _ => { Definition.ofInterface "Nest" with
    parameters := [⟨"T", none⟩]
    interfaces := [comparable (comparable (own "T" 15))] }
  let source := fun _ => { Definition.ofInterface "Source" with parameters := [⟨"T", none⟩] }
  let shelf := fun _ => { Definition.ofClass "Shelf" with
    parameters := [⟨"E", none⟩, ⟨"K", none⟩]
    interfaces := [.classType ⟨16⟩ [own "E" 17], .classType ⟨15⟩ [own "K" 17]] }
  [nest, source, shelf].foldl (fun catalog build => (catalog.insertWith build).2) .standard

theorem registered_nested : nested.Registered :=
  ((Registered.standard.insertWith _).insertWith _).insertWith _

theorem hasDepthBelow_nested : nested.HasDepthBelow 32 :=
  .of_ids (by decide +kernel)

theorem orderly_nested : nested.Orderly :=
  .of_ids (.of_ids (by decide +kernel)) hasDepthBelow_nested (by decide +kernel)

/-- The parameters of `Comparable` and `Source` and the first one of `Shelf`. -/
def exposedInNested (id : VarId) : Bool :=
  id ∈ [⟨"T", some ⟨4⟩⟩, ⟨"T", some ⟨16⟩⟩, ⟨"E", some ⟨17⟩⟩]

theorem exposes_nested : nested.Exposes exposedInNested :=
  .of_ids (by decide +kernel)

/-- A variable whose bound is the class of strings. -/
def boundsInNested (id : VarId) : Option Ty :=
  if id = ⟨"X", none⟩ then some nested.stringType else none

theorem hasProperBounds_nested : nested.HasProperBounds exposedInNested boundsInNested := by
  intro id bound isBound
  rw [boundsInNested] at isBound
  split at isBound
  · cases isBound
    exact ⟨by decide +kernel, fun mention mentioned => by cases mentioned⟩
  · cases isBound

/-- A shelf of strings, the shelves of what is comparable to strings, and the sources of what is
comparable to a certain kind of strings. The wildcards stand at exposed parameters. -/
theorem isSubtype_trans_of_shelf :
    let special := Ty.typeVariable ⟨"X", none⟩ (some nested.stringType)
    let comparable (argument : Ty) := Ty.classType ⟨4⟩ [argument]
    let type := Ty.classType ⟨17⟩ [nested.stringType, special]
    let middle := Ty.classType ⟨17⟩ [.upperWildcard (comparable nested.stringType), special]
    let base := Ty.classType ⟨16⟩ [.upperWildcard (comparable (.lowerWildcard special))]
    nested.IsProper exposedInNested boundsInNested false middle ∧
      nested.isSubtype type middle = true ∧ nested.isSubtype middle base = true ∧
      nested.isSubtype type base = true := by
  intro special comparable type middle base
  have boundBy (type : Ty) (only : type.mentions = [(⟨"X", none⟩, some nested.stringType)]) :
      type.BoundBy boundsInNested := by
    intro mention mentioned
    rw [only, List.mem_singleton] at mentioned
    rw [mentioned]
    rfl
  have typeProper : nested.IsProper exposedInNested boundsInNested false type :=
    ⟨by decide +kernel, boundBy type rfl⟩
  have middleProper : nested.IsProper exposedInNested boundsInNested false middle :=
    ⟨by decide +kernel, boundBy middle rfl⟩
  have baseProper : nested.IsProper exposedInNested boundsInNested false base :=
    ⟨by decide +kernel, boundBy base rfl⟩
  have below : nested.isSubtype type middle = true := by decide +kernel
  have middleBelow : nested.isSubtype middle base = true := by decide +kernel
  exact ⟨middleProper, below, middleBelow,
    isSubtype_trans registered_nested orderly_nested exposes_nested hasProperBounds_nested
      typeProper middleProper baseProper (fun _ _ => by decide +kernel) below middleBelow⟩

/-- The parameter of `Nest` is not exposed: a nest of strings is a nest, and every nest is
comparable to what is comparable, but a nest of strings is not. More steps do not help. -/
theorem not_isSubtype_trans_of_nest :
    let type := Ty.classType ⟨15⟩ [nested.stringType]
    let middle := Ty.classType ⟨15⟩ [.unboundedWildcard]
    let base := Ty.classType ⟨4⟩ [.classType ⟨4⟩ [.unboundedWildcard]]
    nested.Registered ∧ nested.Orderly ∧ nested.HasDepthBelow 32 ∧
      (∀ applied ∈ [type, middle, base],
        nested.isApplied (fun _ => true) false applied = true) ∧
      nested.isSubtype type middle = true ∧ nested.isSubtype middle base = true ∧
      nested.isSubtype type base = false ∧
      ∀ fuel, nested.isSubtypeWithin fuel type base = false := by
  intro type middle base
  have found : nested.definition? ⟨15⟩ = some { Definition.ofInterface "Nest" with
      parameters := [⟨"T", none⟩]
      interfaces := [.classType ⟨4⟩ [.classType ⟨4⟩ [.typeVariable ⟨"T", some ⟨15⟩⟩ none]]] } :=
    rfl
  have breaks := orderly_nested.not_trans_of_hidden registered_nested found
    (.up (.tail _ (.head _)) (.here _)) (by decide) (.head _) rfl (.head _) [nested.stringType] rfl
    (by decide)
  exact ⟨registered_nested, orderly_nested, hasDepthBelow_nested, by decide +kernel,
    by decide +kernel, by decide +kernel, breaks.2.2 _, breaks.2.2⟩

end Catalog

end TypedJava
