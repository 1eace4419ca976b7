import TypedJava.Member.Lookup
import TypedJava.Proofs.Conversion.Erasure

/-! # The nearest declaration

The search for the declaration of a member goes through the definitions above a class by their
distance and passes over those that it has seen before. So it finds a declaration exactly if there
is one within the limit, and it finds one at the least distance. -/

namespace TypedJava

namespace Catalog

/-- A definition is a number of declared supertypes above the first one. A definition without a
superclass stands below the root class, and above the root class there is nothing. -/
inductive Derives (catalog : Catalog) (start : DefinitionId) : Nat → DefinitionId → Prop
  | here : Derives catalog start 0 start
  | up {steps : Nat} {id above : DefinitionId} :
      Derives catalog start steps id → catalog.IsAbove above id →
      Derives catalog start (steps + 1) above

/-- The declaration for a reference that one definition holds. -/
def declaration? (catalog : Catalog) (wanted : Member) (id : DefinitionId) : Option Member :=
  (catalog.definition? id).bind fun definition =>
    (definition.membersNamed wanted.name).find? (·.answers wanted)

/-- The types contain a use of the class. -/
def Uses (types : List Ty) (id : DefinitionId) : Prop :=
  ∃ arguments, .classType id arguments ∈ types

section Declarations

variable {catalog : Catalog} {wanted member : Member} {id : DefinitionId}

end Declarations

section Level

variable {catalog : Catalog} {wanted member : Member} {seen later : List DefinitionId}
  {above higher types : List Ty}

theorem uses_cons {id other : DefinitionId} {arguments : List Ty} :
    Uses (.classType id arguments :: types) other ↔ other = id ∨ Uses types other := by
  simp [Uses, exists_or]

/-- What is found at a distance is declared by a class at that distance. -/
theorem exists_use_of_found
    (found : searchLevel catalog wanted seen above types = .found member) :
    ∃ id, Uses types id ∧ catalog.declaration? wanted id = some member := by
  induction types generalizing seen above with
  | nil =>
      cases found
  | cons type types inductionHypothesis =>
      have further {seen above}
          (found : searchLevel catalog wanted seen above types = .found member) :
          ∃ id, Uses (type :: types) id ∧ catalog.declaration? wanted id = some member := by
        obtain ⟨id, ⟨arguments, use⟩, declared⟩ := inductionHypothesis found
        exact ⟨id, ⟨arguments, List.mem_cons_of_mem type use⟩, declared⟩
      cases type with
      | classType id arguments =>
          rw [searchLevel] at found
          split at found
          · exact further found
          · split at found
            · exact further found
            · rename_i definition isFound
              split at found
              · rename_i declared first
                cases found
                refine ⟨id, ⟨arguments, List.mem_cons_self⟩, ?_⟩
                rw [declaration?, isFound, Option.bind_some, first]
              · exact further found
      | _ =>
          exact further found

/-- What has been seen after the types at one distance have been looked through in vain, and which
types stand above them. -/
structure Passes (catalog : Catalog) (wanted : Member) (seen : List DefinitionId)
    (above types : List Ty) (later : List DefinitionId) (higher : List Ty) : Prop where
  mem_later : ∀ id, id ∈ later ↔ id ∈ seen ∨ Uses types id
  silent : ∀ id ∈ later, id ∈ seen ∨ catalog.declaration? wanted id = none
  keeps : ∀ type ∈ above, type ∈ higher
  leads : ∀ id ∈ later, id ∉ seen → ∀ next, catalog.IsAbove next id → Uses higher next
  comes : ∀ type ∈ higher, type ∈ above ∨ ∃ id next arguments, Uses types id ∧
    catalog.IsAbove next id ∧ type = .classType next arguments

/-- A definition that was seen before adds nothing. -/
theorem Passes.cons_seen
    {id : DefinitionId} (known : id ∈ seen) (arguments : List Ty)
    (passes : catalog.Passes wanted seen above types later higher) :
    catalog.Passes wanted seen above (.classType id arguments :: types) later higher where
  mem_later other := by
    rw [passes.mem_later, uses_cons]
    constructor
    · exact Or.imp_right Or.inr
    · rintro (inSeen | rfl | use)
      · exact Or.inl inSeen
      · exact Or.inl known
      · exact Or.inr use
  silent := passes.silent
  keeps := passes.keeps
  leads := passes.leads
  comes type member := by
    refine (passes.comes type member).imp_right ?_
    rintro ⟨other, next, others, use, isAbove, same⟩
    exact ⟨other, next, others, uses_cons.mpr (Or.inr use), isAbove, same⟩

/-- A definition that declares nothing is marked, and the types above it wait. -/
theorem Passes.cons_new
    {id : DefinitionId} {arguments : List Ty} (added : List Ty)
    (silent : catalog.declaration? wanted id = none)
    (leads : ∀ next, catalog.IsAbove next id → Uses added next)
    (comes : ∀ type ∈ added, ∃ next others, type = .classType next others ∧
      catalog.IsAbove next id)
    (passes : catalog.Passes wanted (id :: seen) (above ++ added) types later higher) :
    catalog.Passes wanted seen above (.classType id arguments :: types) later higher where
  mem_later other := by
    rw [passes.mem_later, uses_cons, List.mem_cons, or_assoc, or_left_comm]
  silent other member := by
    rcases passes.silent other member with marked | quiet
    · rcases List.mem_cons.mp marked with rfl | inSeen
      · exact Or.inr silent
      · exact Or.inl inSeen
    · exact Or.inr quiet
  keeps type member := passes.keeps type (List.mem_append_left added member)
  leads other member new next isAbove := by
    by_cases same : other = id
    · subst same
      obtain ⟨others, waiting⟩ := leads next isAbove
      exact ⟨others, passes.keeps _ (List.mem_append_right above waiting)⟩
    · refine passes.leads other member ?_ next isAbove
      rw [List.mem_cons, not_or]
      exact ⟨same, new⟩
  comes type member := by
    rcases passes.comes type member with waiting | ⟨other, next, others, use, isAbove, same⟩
    · rcases List.mem_append.mp waiting with before | isAdded
      · exact Or.inl before
      · obtain ⟨next, others, same, isAbove⟩ := comes type isAdded
        exact Or.inr ⟨id, next, others, uses_cons.mpr (Or.inl rfl), isAbove, same⟩
    · exact Or.inr ⟨other, next, others, uses_cons.mpr (Or.inr use), isAbove, same⟩

theorem passes_of_continue
    (declares : catalog.DeclaresClasses)
    (classes : ∀ type ∈ types, ∃ id arguments, type = .classType id arguments)
    (continues : searchLevel catalog wanted seen above types = .continue later higher) :
    catalog.Passes wanted seen above types later higher := by
  induction types generalizing seen above with
  | nil =>
      cases continues
      exact ⟨fun id => by simp [Uses], fun id member => Or.inl member, fun _ member => member,
        fun id member new => absurd member new, fun _ member => Or.inl member⟩
  | cons type types inductionHypothesis =>
      obtain ⟨id, arguments, rfl⟩ := classes type List.mem_cons_self
      have rest {seen above}
          (continues : searchLevel catalog wanted seen above types = .continue later higher) :
          catalog.Passes wanted seen above types later higher :=
        inductionHypothesis (fun type member => classes type (List.mem_cons_of_mem _ member))
          continues
      rw [searchLevel] at continues
      split at continues
      · rename_i known
        exact (rest continues).cons_seen (List.contains_iff_mem.mp known) arguments
      · split at continues
        · rename_i missing
          -- Above a definition that is not registered there is nothing.
          have nothing : ∀ next, ¬ catalog.IsAbove next id := by
            rintro next ⟨_, definition, found, _⟩
            rw [missing] at found
            cases found
          refine Passes.cons_new [] ?_ (fun next isAbove => absurd isAbove (nothing next))
            (fun type member => absurd member List.not_mem_nil) ?_
          · rw [declaration?, missing, Option.bind_none]
          · rw [List.append_nil]
            exact rest continues
        · rename_i definition found
          split at continues
          · cases continues
          · rename_i silent
            refine Passes.cons_new _ ?_ (fun next isAbove => isAbove.exists_mem arguments)
              (fun type member => declares.exists_isAbove member) (rest continues)
            rw [declaration?, found, Option.bind_some, silent]

end Level

section Search

variable {catalog : Catalog} {wanted member : Member} {start id : DefinitionId}
  {steps : Nat} {seen later : List DefinitionId} {level above : List Ty}

/-- The definitions at a distance are seen or wait to be looked through, and all closer ones are
seen. No definition that is seen declares the member, and none leads to a definition that is neither
seen nor waits. -/
structure Explores (catalog : Catalog) (wanted : Member) (start : DefinitionId) (steps : Nat)
    (seen : List DefinitionId) (level : List Ty) : Prop where
  waiting : ∀ type ∈ level, ∃ id arguments, type = .classType id arguments ∧
    catalog.Derives start steps id
  closer : ∀ less id, less < steps → catalog.Derives start less id → id ∈ seen
  here : ∀ id, catalog.Derives start steps id → id ∈ seen ∨ Uses level id
  silent : ∀ id ∈ seen, catalog.declaration? wanted id = none
  closed : ∀ id ∈ seen, ∀ next, catalog.IsAbove next id → next ∈ seen ∨ Uses level next

/-- One distance after the other. -/
theorem Explores.next
    (explores : catalog.Explores wanted start steps seen level)
    (passes : catalog.Passes wanted seen [] level later above) :
    catalog.Explores wanted start (steps + 1) later above := by
  have closer : ∀ less id, less < steps + 1 → catalog.Derives start less id → id ∈ later := by
    intro less id bound derives
    rw [passes.mem_later]
    rcases Nat.lt_succ_iff_lt_or_eq.mp bound with closer | rfl
    · exact Or.inl (explores.closer less id closer derives)
    · exact explores.here id derives
  have closed : ∀ id ∈ later, ∀ next, catalog.IsAbove next id → next ∈ later ∨ Uses above next := by
    intro id member next isAbove
    by_cases before : id ∈ seen
    · exact Or.inl ((passes.mem_later next).mpr (explores.closed id before next isAbove))
    · exact Or.inr (passes.leads id member before next isAbove)
  refine ⟨?_, closer, ?_, ?_, closed⟩
  · intro type member
    obtain ⟨id, next, arguments, ⟨others, use⟩, isAbove, same⟩ :=
      (passes.comes type member).resolve_left List.not_mem_nil
    obtain ⟨found, foundArguments, sameUse, derives⟩ := explores.waiting _ use
    cases sameUse
    exact ⟨next, arguments, same, .up derives isAbove⟩
  · intro id derives
    cases derives with
    | up derives isAbove =>
        exact closed _ (closer steps _ (Nat.lt_succ_self steps) derives) id isAbove
  · intro id member
    rcases passes.silent id member with before | silent
    · exact explores.silent id before
    · exact silent

/-- Where nothing waits any more, all definitions above the start are seen. -/
theorem Explores.mem_seen
    (explores : catalog.Explores wanted start steps seen [])
    {distance : Nat} (derives : catalog.Derives start distance id) :
    id ∈ seen := by
  have unused : ∀ id, ¬ Uses [] id := by
    rintro id ⟨arguments, member⟩
    exact absurd member List.not_mem_nil
  induction derives with
  | here =>
      rcases Nat.eq_zero_or_pos steps with rfl | positive
      · exact (explores.here start .here).resolve_right (unused start)
      · exact explores.closer 0 start positive .here
  | up _ isAbove inductionHypothesis =>
      exact (explores.closed _ inductionHypothesis _ isAbove).resolve_right (unused _)

/-- From a distance on, the search finds a declaration at the least distance, or there is none
within the limit. -/
theorem Explores.searchLevels
    (declares : catalog.DeclaresClasses)
    (explores : catalog.Explores wanted start steps seen level) (fuel : Nat) :
    match searchLevels catalog wanted fuel seen level with
    | some member => ∃ distance id, distance < steps + fuel ∧ catalog.Derives start distance id ∧
        catalog.declaration? wanted id = some member ∧
        ∀ less other, less < distance → catalog.Derives start less other →
          catalog.declaration? wanted other = none
    | none => ∀ distance id, distance < steps + fuel → catalog.Derives start distance id →
        catalog.declaration? wanted id = none := by
  induction fuel generalizing steps seen level with
  | zero =>
      exact fun distance id bound derives =>
        explores.silent id (explores.closer distance id bound derives)
  | succ fuel inductionHypothesis =>
      rw [Catalog.searchLevels]
      cases searched : searchLevel catalog wanted seen [] level with
      | found member =>
          obtain ⟨id, ⟨arguments, use⟩, declared⟩ := exists_use_of_found searched
          obtain ⟨_, _, same, derives⟩ := explores.waiting _ use
          cases same
          exact ⟨steps, id, by omega, derives, declared, fun less other closer derives =>
            explores.silent other (explores.closer less other closer derives)⟩
      | «continue» later above =>
          have classes : ∀ type ∈ level, ∃ id arguments, type = .classType id arguments := by
            intro type member
            obtain ⟨id, arguments, same, _⟩ := explores.waiting type member
            exact ⟨id, arguments, same⟩
          have next := explores.next (passes_of_continue declares classes searched)
          simp only
          by_cases nothing : above.isEmpty = true
          · rw [if_pos nothing]
            rw [List.isEmpty_iff] at nothing
            subst nothing
            exact fun distance id _ derives => next.silent id (next.mem_seen derives)
          · rw [if_neg nothing, ← Nat.succ_add_eq_add_succ]
            exact inductionHypothesis next

end Search

end Catalog

end TypedJava
