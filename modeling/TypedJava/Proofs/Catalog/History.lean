import TypedJava.Catalog
import Mathlib.Algebra.Group.Nat.Defs
import Mathlib.Data.List.Induction

/-! # The history of a catalog

A catalog is what its history says: the registrations are numbered from one upwards, a name leads to
the last registration under it, and a definition is what was registered with the members that were
added to it since. The definitions of the language are the first fourteen registrations of every
history. -/

namespace TypedJava

/-! ## Members added to a definition -/

namespace Definition

theorem getD_lookup_insertMember (member : Member) (members : List (String × List Member))
    (name : String) :
    ((insertMember member members).lookup name).getD [] =
      (members.lookup name).getD [] ++ if member.name = name then [member] else [] := by
  induction members with
  | nil =>
      by_cases same : member.name = name
      · simp [insertMember, same]
      · simp [insertMember, same, List.lookup_cons, beq_eq_false_iff_ne.mpr (Ne.symm same)]
  | cons entry rest inductionHypothesis =>
      obtain ⟨first, here⟩ := entry
      rw [insertMember]
      by_cases isFirst : first = member.name
      · subst isFirst
        rw [if_pos rfl]
        by_cases same : member.name = name
        · simp [same]
        · simp [same, List.lookup_cons, beq_eq_false_iff_ne.mpr (Ne.symm same)]
      · rw [if_neg isFirst]
        by_cases same : name = first
        · subst same
          simp [Ne.symm isFirst]
        · simpa [List.lookup_cons, beq_eq_false_iff_ne.mpr same] using inductionHypothesis

theorem names_insertMember (member : Member) (members : List (String × List Member)) :
    (insertMember member members).map (·.1) =
      members.map (·.1) ++ if member.name ∈ members.map (·.1) then [] else [member.name] := by
  induction members with
  | nil =>
      rfl
  | cons entry rest inductionHypothesis =>
      obtain ⟨first, here⟩ := entry
      rw [insertMember]
      by_cases isFirst : first = member.name
      · simp [isFirst]
      · rw [if_neg isFirst, List.map_cons, inductionHypothesis, List.map_cons, List.cons_append]
        simp only [List.mem_cons, Ne.symm isFirst, false_or]

/-- The definition with members added one after the other. -/
def withMembers (definition : Definition) (added : List Member) : Definition :=
  added.foldl withMember definition

theorem withMembers_append (definition : Definition) (first second : List Member) :
    definition.withMembers (first ++ second) =
      (definition.withMembers first).withMembers second :=
  List.foldl_append

/-- A definition is another one with members added to it, and nothing else about it is different. -/
structure GainsMembers (declared : Definition) (added : List Member) (result : Definition) :
    Prop where
  others_same : { result with members := declared.members } = declared
  /-- The members of a name are followed by the new ones of that name, in order. -/
  membersNamed_eq : ∀ name,
    result.membersNamed name = declared.membersNamed name ++ added.filter (·.name = name)
  /-- The names that were there come first, then the new ones as they came up. -/
  names_eq : result.members.map (·.1) =
    declared.members.map (·.1) ++
      ((added.map (·.name)).filter (· ∉ declared.members.map (·.1))).eraseDups

theorem GainsMembers.withMember
    {declared result : Definition} {added : List Member}
    (gains : declared.GainsMembers added result) (member : Member) :
    declared.GainsMembers (added ++ [member]) (result.withMember member) where
  others_same := gains.others_same
  membersNamed_eq := by
    intro name
    have before := gains.membersNamed_eq name
    rw [membersNamed] at before ⊢
    rw [Definition.withMember, getD_lookup_insertMember, before, List.filter_append,
      List.append_assoc]
    by_cases same : member.name = name <;> simp [same]
  names_eq := by
    rw [Definition.withMember, names_insertMember, gains.names_eq, List.map_append,
      List.filter_append, List.eraseDups_append, List.append_assoc]
    congr 2
    by_cases known : member.name ∈ declared.members.map (·.1)
    · simp [known, List.removeAll]
    · by_cases came : ∃ other ∈ added, other.name = member.name
      · simp [known, came, List.removeAll]
      · simp [known, came, List.removeAll, List.eraseDups_cons]

theorem gainsMembers_withMembers (declared : Definition) (added : List Member) :
    declared.GainsMembers added (declared.withMembers added) := by
  induction added using List.reverseRecOn with
  | nil =>
      exact ⟨rfl, by simp [withMembers], by simp [withMembers]⟩
  | append_singleton added member inductionHypothesis =>
      rw [withMembers_append]
      exact inductionHypothesis.withMember member

end Definition

/-! ## Changes -/

/-- A change of a catalog. -/
inductive CatalogChange where
  | insert (definition : Definition)
  /-- Registers a definition that may mention its own identifier. -/
  | insertWith (build : DefinitionId → Definition)
  | insertMember (id : DefinitionId) (member : Member)

/-- What a catalog answers to a change. -/
inductive CatalogAnswer where
  | registered (id : DefinitionId)
  /-- Tells whether the definition that was to get a member is registered. -/
  | known (isKnown : Bool)
  deriving DecidableEq, Repr

namespace CatalogChange

/-- Does the change register a definition? -/
def isRegistration : CatalogChange → Bool
  | insert _ | insertWith _ => true
  | insertMember _ _ => false

/-- The definition that the change registers when its identifier is the given one. -/
def declared? (id : DefinitionId) : CatalogChange → Option Definition
  | insert definition => some definition
  | insertWith build => some (build id)
  | insertMember _ _ => none

/-- The member that the change adds to a definition. -/
def memberFor? (id : DefinitionId) : CatalogChange → Option Member
  | insertMember owner member => if owner = id then some member else none
  | insert _ | insertWith _ => none

end CatalogChange

/-- The number of registrations. -/
def registrations (history : List CatalogChange) : Nat :=
  history.countP (·.isRegistration)

/-- The members that changes add to a definition. -/
def membersFor (id : DefinitionId) (changes : List CatalogChange) : List Member :=
  changes.filterMap (·.memberFor? id)

theorem membersFor_append (id : DefinitionId) (first second : List CatalogChange) :
    membersFor id (first ++ second) = membersFor id first ++ membersFor id second :=
  List.filterMap_append

theorem membersFor_insertMember (id owner : DefinitionId) (member : Member) :
    membersFor id [.insertMember owner member] = if id = owner then [member] else [] := by
  by_cases same : owner = id
  · simp [membersFor, CatalogChange.memberFor?, same]
  · simp [membersFor, CatalogChange.memberFor?, same, Ne.symm same]

/-- In the course of the history a definition was registered with an identifier, its number among the
registrations; the later changes follow. -/
def Registers (history : List CatalogChange) (id : DefinitionId) (declared : Definition)
    (later : List CatalogChange) : Prop :=
  ∃ earlier change, history = earlier ++ change :: later ∧ change.declared? id = some declared ∧
    id.number = registrations earlier + 1

/-- In the course of the history an identifier was registered under a name. -/
def RegistersName (history : List CatalogChange) (id : DefinitionId) (name : String) : Prop :=
  ∃ declared later, Registers history id declared later ∧ declared.internalName = name

section Registrations

variable {history later : List CatalogChange} {change : CatalogChange} {id : DefinitionId}
  {declared : Definition} {name : String}

theorem CatalogChange.isRegistration_of_declared?
    (declares : change.declared? id = some declared) : change.isRegistration = true := by
  cases change with
  | insert definition =>
      rfl
  | insertWith build =>
      rfl
  | insertMember owner member =>
      cases declares

theorem registrations_append (first second : List CatalogChange) :
    registrations (first ++ second) = registrations first + registrations second :=
  List.countP_append

theorem registrations_singleton (change : CatalogChange) :
    registrations [change] = change.isRegistration.toNat := by
  cases change <;> rfl

theorem not_registers_nil : ¬ Registers [] id declared later := by
  rintro ⟨earlier, change, split, -⟩
  cases earlier <;> cases split

/-- The last change has registered the identifier, or the identifier was registered before. -/
theorem registers_append_singleton :
    Registers (history ++ [change]) id declared later ↔
      (∃ between, later = between ++ [change] ∧ Registers history id declared between) ∨
        later = [] ∧ change.declared? id = some declared ∧
          id.number = registrations history + 1 := by
  constructor
  · rintro ⟨earlier, registration, split, declares, number⟩
    rcases later.eq_nil_or_concat with rfl | ⟨between, last, rfl⟩
    · obtain ⟨rfl, same⟩ := List.append_inj' split rfl
      cases same
      exact Or.inr ⟨rfl, declares, number⟩
    · rw [List.concat_eq_append, ← List.cons_append, ← List.append_assoc] at split
      obtain ⟨same, lastSame⟩ := List.append_inj' split rfl
      cases lastSame
      exact Or.inl ⟨between, List.concat_eq_append, earlier, registration, same, declares, number⟩
  · rintro (⟨between, rfl, earlier, registration, rfl, declares, number⟩ | ⟨rfl, declares, number⟩)
    · exact ⟨earlier, registration, by simp, declares, number⟩
    · exact ⟨history, change, rfl, declares, number⟩

theorem Registers.number_le (registers : Registers history id declared later) :
    id.number ≤ registrations history := by
  obtain ⟨earlier, change, rfl, declares, number⟩ := registers
  rw [number, ← List.singleton_append, registrations_append, registrations_append,
    registrations_singleton, CatalogChange.isRegistration_of_declared? declares, Bool.toNat_true]
  omega

/-- No identifier is given twice. -/
theorem Registers.unique
    {other : Definition} {others : List CatalogChange}
    (registers : Registers history id declared later)
    (again : Registers history id other others) :
    declared = other ∧ later = others := by
  induction history using List.reverseRecOn generalizing later others with
  | nil =>
      exact (not_registers_nil registers).elim
  | append_singleton history change inductionHypothesis =>
      rcases registers_append_singleton.mp registers with
        ⟨between, rfl, before⟩ | ⟨rfl, declares, number⟩
      all_goals
        rcases registers_append_singleton.mp again with
          ⟨betweenAgain, rfl, beforeAgain⟩ | ⟨rfl, declaresAgain, numberAgain⟩
      · obtain ⟨same, rfl⟩ := inductionHypothesis before beforeAgain
        exact ⟨same, rfl⟩
      · have numberLe := before.number_le
        omega
      · have numberLe := beforeAgain.number_le
        omega
      · rw [declares] at declaresAgain
        exact ⟨Option.some.inj declaresAgain, rfl⟩

theorem registersName_append_singleton :
    RegistersName (history ++ [change]) id name ↔
      RegistersName history id name ∨
        ∃ declared, change.declared? id = some declared ∧ declared.internalName = name ∧
          id.number = registrations history + 1 := by
  constructor
  · rintro ⟨declared, later, registers, named⟩
    rcases registers_append_singleton.mp registers with ⟨between, -, before⟩ | ⟨-, declares, number⟩
    · exact Or.inl ⟨declared, between, before, named⟩
    · exact Or.inr ⟨declared, declares, named, number⟩
  · rintro (⟨declared, later, before, named⟩ | ⟨declared, declares, named, number⟩)
    · exact ⟨declared, later ++ [change],
        registers_append_singleton.mpr (Or.inl ⟨later, rfl, before⟩), named⟩
    · exact ⟨declared, [], registers_append_singleton.mpr (Or.inr ⟨rfl, declares, number⟩), named⟩

theorem RegistersName.number_le (registers : RegistersName history id name) :
    id.number ≤ registrations history := by
  obtain ⟨declared, later, registered, -⟩ := registers
  exact registered.number_le

end Registrations

namespace Catalog

/-! ## What one change does -/

section Steps

variable (catalog : Catalog) (build : DefinitionId → Definition) (id : DefinitionId)

/-- Makes one change. -/
def apply (catalog : Catalog) : CatalogChange → CatalogAnswer × Catalog
  | .insert definition =>
    let (id, catalog) := catalog.insert definition
    (.registered id, catalog)
  | .insertWith build =>
    let (id, catalog) := catalog.insertWith build
    (.registered id, catalog)
  | .insertMember id member =>
    let (isKnown, catalog) := catalog.insertMember id member
    (.known isKnown, catalog)

/-- The catalog after one change after the other. -/
def after (catalog : Catalog) (changes : List CatalogChange) : Catalog :=
  changes.foldl (fun catalog change => (catalog.apply change).2) catalog

theorem after_append (first second : List CatalogChange) :
    catalog.after (first ++ second) = (catalog.after first).after second :=
  List.foldl_append

theorem definition?_insertWith :
    (catalog.insertWith build).2.definition? id =
      if id = catalog.nextId then some (build id) else catalog.definition? id := by
  simp only [insertWith, definition?, List.lookup_cons]
  by_cases isNext : id = catalog.nextId
  · simp [isNext]
  · simp [isNext, beq_eq_false_iff_ne.mpr isNext]

theorem lookup?_insertWith (name : String) :
    (catalog.insertWith build).2.lookup? name =
      if (build catalog.nextId).internalName = name then some catalog.nextId
      else catalog.lookup? name := by
  simp only [insertWith, lookup?, List.lookup_cons]
  by_cases same : (build catalog.nextId).internalName = name
  · simp [same]
  · simp [same, beq_eq_false_iff_ne.mpr (Ne.symm same)]

theorem nextId_insertWith :
    (catalog.insertWith build).2.nextId = ⟨catalog.nextId.number + 1⟩ :=
  rfl

theorem size_insertWith : (catalog.insertWith build).2.size = catalog.size + 1 := by
  simp [insertWith, size]

theorem insertMember_of_not_contains
    {catalog : Catalog} {id : DefinitionId} (absent : ¬ catalog.contains id = true)
    (member : Member) :
    catalog.insertMember id member = (false, catalog) :=
  if_neg absent

private theorem lookup_map_at
    (entries : List (DefinitionId × Definition)) (owner : DefinitionId)
    (change : Definition → Definition) :
    (entries.map fun (entry, definition) =>
        (entry, if entry = owner then change definition else definition)).lookup id =
      if id = owner then (entries.lookup id).map change else entries.lookup id := by
  induction entries with
  | nil =>
      simp
  | cons entry rest inductionHypothesis =>
      obtain ⟨first, definition⟩ := entry
      rw [List.map_cons, List.lookup_cons, List.lookup_cons, inductionHypothesis]
      by_cases isFirst : id = first
      · subst isFirst
        by_cases isOwner : id = owner <;> simp [isOwner]
      · simp [beq_eq_false_iff_ne.mpr isFirst]

theorem definition?_insertMember (owner : DefinitionId) (member : Member) :
    (catalog.insertMember owner member).2.definition? id =
      if id = owner then (catalog.definition? id).map (·.withMember member)
      else catalog.definition? id := by
  by_cases known : catalog.contains owner = true
  · rw [insertMember, if_pos known]
    exact lookup_map_at id catalog.definitions owner (·.withMember member)
  · rw [insertMember_of_not_contains known]
    split
    · rename_i same
      rw [contains, Option.not_isSome_iff_eq_none, ← same] at known
      rw [known]
      rfl
    · rfl

theorem lookup?_insertMember (owner : DefinitionId) (member : Member) (name : String) :
    (catalog.insertMember owner member).2.lookup? name = catalog.lookup? name := by
  rw [insertMember]
  split <;> rfl

theorem size_insertMember (owner : DefinitionId) (member : Member) :
    (catalog.insertMember owner member).2.size = catalog.size := by
  rw [insertMember]
  split
  · simp [size]
  · rfl

theorem nextId_insertMember (owner : DefinitionId) (member : Member) :
    (catalog.insertMember owner member).2.nextId = catalog.nextId := by
  rw [insertMember]
  split <;> rfl

theorem ids_insertMember (owner : DefinitionId) (member : Member) :
    (catalog.insertMember owner member).2.ids = catalog.ids := by
  rw [insertMember]
  split
  · simp [ids]
  · rfl

/-- The catalog has a definition of what it lists. -/
theorem contains_of_mem_ids
    {catalog : Catalog} {id : DefinitionId} (listed : id ∈ catalog.ids) :
    catalog.contains id = true :=
  isSome_lookup_of_mem_keys listed

end Steps

/-! ## What a history does -/

/-- The catalog is what its history says. -/
structure Recounts (catalog : Catalog) (history : List CatalogChange) : Prop where
  /-- The counter is one ahead of the definitions. -/
  nextId_eq : catalog.nextId = ⟨registrations history + 1⟩
  size_eq : catalog.size = registrations history
  /-- No identifier was given twice. -/
  ids_nodup : catalog.ids.Nodup
  /-- A definition is what was registered with the members added to it since. -/
  definition?_eq : ∀ {id declared later}, Registers history id declared later →
    catalog.definition? id = some (declared.withMembers (membersFor id later))
  registers : ∀ {id definition}, catalog.definition? id = some definition →
    ∃ declared later, Registers history id declared later
  /-- A name leads to the last registration under it. -/
  lookup?_eq_some_iff : ∀ {name id}, catalog.lookup? name = some id ↔
    RegistersName history id name ∧
      ∀ other, RegistersName history other name → other.number ≤ id.number

/-- The catalog without any definition. -/
def blank : Catalog :=
  ⟨⟨1⟩, [], [], .standard⟩

namespace Recounts

variable {catalog : Catalog} {history : List CatalogChange}

theorem blank : blank.Recounts [] where
  nextId_eq := rfl
  size_eq := rfl
  ids_nodup := List.nodup_nil
  definition?_eq := fun registers => (not_registers_nil registers).elim
  registers := by
    intro id definition found
    cases found
  lookup?_eq_some_iff := by
    intro name id
    constructor
    · intro found
      cases found
    · rintro ⟨⟨declared, later, registers, -⟩, -⟩
      exact (not_registers_nil registers).elim

/-- What the counter gives next is not in use. -/
theorem contains_nextId (recounts : catalog.Recounts history) :
    catalog.contains catalog.nextId = false := by
  rw [Bool.eq_false_iff]
  intro contains
  obtain ⟨definition, found⟩ := Option.isSome_iff_exists.mp contains
  obtain ⟨declared, later, registers⟩ := recounts.registers found
  have numberLe := registers.number_le
  rw [recounts.nextId_eq] at numberLe
  exact Nat.not_succ_le_self _ numberLe

/-- A registration gets the next number. -/
theorem insertWith
    (recounts : catalog.Recounts history) (build : DefinitionId → Definition)
    {change : CatalogChange} (declares : ∀ id, change.declared? id = some (build id)) :
    (catalog.insertWith build).2.Recounts (history ++ [change]) := by
  have isRegistration := CatalogChange.isRegistration_of_declared? (declares ⟨0⟩)
  have next : ∀ id, id = catalog.nextId ↔ id.number = registrations history + 1 := by
    rintro ⟨number⟩
    rw [recounts.nextId_eq, DefinitionId.mk.injEq]
  have noMember : ∀ id, change.memberFor? id = none := by
    intro id
    cases change with
    | insert definition =>
        rfl
    | insertWith build =>
        rfl
    | insertMember owner member =>
        cases isRegistration
  have total : registrations (history ++ [change]) = registrations history + 1 := by
    rw [registrations_append, registrations_singleton, isRegistration, Bool.toNat_true]
  refine ⟨?_, ?_, ?_, ?_, ?_, ?_⟩
  · rw [nextId_insertWith, recounts.nextId_eq, total]
  · rw [size_insertWith, recounts.size_eq, total]
  · refine List.nodup_cons.mpr ⟨fun listed => ?_, recounts.ids_nodup⟩
    have contains := contains_of_mem_ids listed
    rw [recounts.contains_nextId] at contains
    cases contains
  · intro id declared later registers
    rw [definition?_insertWith]
    rcases registers_append_singleton.mp registers with ⟨between, rfl, before⟩ | ⟨rfl, here, number⟩
    · have old : id ≠ catalog.nextId := by
        have numberLe := before.number_le
        rw [Ne, next]
        omega
      have noneNew : membersFor id [change] = [] := by
        rw [membersFor, List.filterMap_cons_none (noMember id), List.filterMap_nil]
      rw [if_neg old, recounts.definition?_eq before, membersFor_append, noneNew, List.append_nil]
    · rw [declares] at here
      cases here
      exact if_pos ((next id).mpr number)
  · intro id definition found
    rw [definition?_insertWith] at found
    split at found
    · rename_i isNext
      exact ⟨build id, [],
        registers_append_singleton.mpr (Or.inr ⟨rfl, declares id, (next id).mp isNext⟩)⟩
    · obtain ⟨declared, later, before⟩ := recounts.registers found
      exact ⟨declared, later ++ [change],
        registers_append_singleton.mpr (Or.inl ⟨later, rfl, before⟩)⟩
  · intro name id
    have nextNumber : catalog.nextId.number = registrations history + 1 := (next _).mp rfl
    rw [lookup?_insertWith]
    simp only [registersName_append_singleton, declares, Option.some.injEq, exists_eq_left']
    split
    · rename_i named
      constructor
      · intro isNext
        cases isNext
        refine ⟨Or.inr ⟨named, nextNumber⟩, ?_⟩
        rintro other (before | ⟨-, number⟩)
        · exact nextNumber ▸ Nat.le_succ_of_le before.number_le
        · omega
      · rintro ⟨here, isLast⟩
        have number := isLast catalog.nextId (Or.inr ⟨named, nextNumber⟩)
        rcases here with before | ⟨-, isNext⟩
        · have numberLe := before.number_le
          omega
        · exact congrArg some ((next id).mpr isNext).symm
    · rename_i unnamed
      have notNext : ∀ other, ¬ ((build other).internalName = name ∧
          other.number = registrations history + 1) := by
        rintro other ⟨named, number⟩
        rw [(next other).mpr number] at named
        exact unnamed named
      simp only [notNext, or_false]
      exact recounts.lookup?_eq_some_iff

/-- A new member goes to the definition with its identifier and changes nothing else. -/
theorem insertMember
    (recounts : catalog.Recounts history) (owner : DefinitionId) (member : Member) :
    (catalog.insertMember owner member).2.Recounts (history ++ [.insertMember owner member]) := by
  have declaredBefore : ∀ {id declared later},
      Registers (history ++ [.insertMember owner member]) id declared later ↔
        ∃ between, later = between ++ [.insertMember owner member] ∧
          Registers history id declared between := by
    intro id declared later
    rw [registers_append_singleton]
    simp [CatalogChange.declared?]
  have total : registrations (history ++ [.insertMember owner member]) = registrations history := by
    rw [registrations_append]
    rfl
  refine ⟨?_, ?_, ?_, ?_, ?_, ?_⟩
  · rw [nextId_insertMember, recounts.nextId_eq, total]
  · rw [size_insertMember, recounts.size_eq, total]
  · rw [ids_insertMember]
    exact recounts.ids_nodup
  · intro id declared later registers
    obtain ⟨between, rfl, before⟩ := declaredBefore.mp registers
    rw [definition?_insertMember, recounts.definition?_eq before, membersFor_append,
      Definition.withMembers_append, membersFor_insertMember]
    split <;> rfl
  · intro id definition found
    have known : ∃ before, catalog.definition? id = some before := by
      rw [definition?_insertMember] at found
      split at found
      · obtain ⟨before, isBefore, -⟩ := Option.map_eq_some_iff.mp found
        exact ⟨before, isBefore⟩
      · exact ⟨definition, found⟩
    obtain ⟨before, isBefore⟩ := known
    obtain ⟨declared, later, registers⟩ := recounts.registers isBefore
    exact ⟨declared, _, declaredBefore.mpr ⟨later, rfl, registers⟩⟩
  · intro name id
    rw [lookup?_insertMember]
    simpa [registersName_append_singleton, CatalogChange.declared?] using
      recounts.lookup?_eq_some_iff

theorem apply (recounts : catalog.Recounts history) (change : CatalogChange) :
    (catalog.apply change).2.Recounts (history ++ [change]) := by
  cases change with
  | insert definition =>
      exact recounts.insertWith (fun _ => definition) fun _ => rfl
  | insertWith build =>
      exact recounts.insertWith build fun _ => rfl
  | insertMember owner member =>
      exact recounts.insertMember owner member

theorem after (recounts : catalog.Recounts history) (changes : List CatalogChange) :
    (catalog.after changes).Recounts (history ++ changes) := by
  induction changes using List.reverseRecOn with
  | nil =>
      rwa [List.append_nil]
  | append_singleton changes change inductionHypothesis =>
      rw [after_append, ← List.append_assoc]
      exact inductionHypothesis.apply change

theorem contains_iff_registers (recounts : catalog.Recounts history) (id : DefinitionId) :
    catalog.contains id = true ↔ ∃ declared later, Registers history id declared later := by
  constructor
  · intro contains
    obtain ⟨definition, found⟩ := Option.isSome_iff_exists.mp contains
    exact recounts.registers found
  · rintro ⟨declared, later, registers⟩
    rw [contains, recounts.definition?_eq registers]
    rfl

/-- A registration answers with the next number. -/
theorem answer_of_isRegistration
    (recounts : catalog.Recounts history) {change : CatalogChange}
    (isRegistration : change.isRegistration = true) :
    (catalog.apply change).1 = .registered ⟨registrations history + 1⟩ := by
  cases change with
  | insert definition =>
      exact congrArg CatalogAnswer.registered recounts.nextId_eq
  | insertWith build =>
      exact congrArg CatalogAnswer.registered recounts.nextId_eq
  | insertMember id member =>
      cases isRegistration

/-- A name leads to a definition of this name. -/
theorem exists_definition?_of_lookup?
    (recounts : catalog.Recounts history) {name : String} {id : DefinitionId}
    (leads : catalog.lookup? name = some id) :
    ∃ definition, catalog.definition? id = some definition ∧ definition.internalName = name := by
  obtain ⟨⟨declared, later, registers, rfl⟩, -⟩ := recounts.lookup?_eq_some_iff.mp leads
  have others := (declared.gainsMembers_withMembers (membersFor id later)).others_same
  have sameName := congrArg Definition.internalName others
  exact ⟨_, recounts.definition?_eq registers, sameName⟩

end Recounts

/-- The registrations with which every catalog begins. -/
def coreChanges : List CatalogChange :=
  (coreDefinitions .standard).map .insertWith

theorem after_coreChanges : blank.after coreChanges = .standard := by
  rw [after, coreChanges, List.foldl_map]
  rfl

theorem recounts_standard_after (changes : List CatalogChange) :
    (standard.after changes).Recounts (coreChanges ++ changes) := by
  rw [← after_coreChanges]
  exact (Recounts.blank.after coreChanges).after changes

theorem registrations_coreChanges : registrations coreChanges = 14 :=
  rfl

/-- After every history that starts with the definitions of the language, the catalog is what the
history says: identifiers are given in turn and never twice, a name leads to the last registration
under it, and a definition is what was registered with the members that were added since. -/
theorem standard_after_follows_history (changes : List CatalogChange) :
    let history := coreChanges ++ changes
    let catalog := standard.after changes
    catalog.size = 14 + registrations changes ∧
      (∀ change, change.isRegistration = true →
        (catalog.apply change).1 = .registered ⟨15 + registrations changes⟩) ∧
      (14 + registrations changes < 2 ^ 32 →
        ∀ id, catalog.contains id = true → id.number < 2 ^ 32) ∧
      (∀ id declared later, Registers history id declared later →
        (∀ other others, Registers history id other others → other = declared ∧ others = later) ∧
          catalog.definition? id = some (declared.withMembers (membersFor id later)) ∧
          declared.GainsMembers (membersFor id later)
            (declared.withMembers (membersFor id later))) ∧
      (∀ id, (¬ ∃ declared later, Registers history id declared later) →
        catalog.definition? id = none) ∧
      (∀ id member,
        ((∃ declared later, Registers history id declared later) →
          (catalog.apply (.insertMember id member)).1 = .known true) ∧
        ((¬ ∃ declared later, Registers history id declared later) →
          catalog.apply (.insertMember id member) = (.known false, catalog))) ∧
      (∀ name id, catalog.lookup? name = some id ↔
        RegistersName history id name ∧
          ∀ other, RegistersName history other name → other.number ≤ id.number) ∧
      (∀ name id, catalog.lookup? name = some id →
        ∃ definition, catalog.definition? id = some definition ∧
          definition.internalName = name) := by
  intro history catalog
  have recounts : catalog.Recounts history := recounts_standard_after changes
  have total : registrations history = 14 + registrations changes := by
    rw [registrations_append, registrations_coreChanges]
  have size : catalog.size = 14 + registrations changes := recounts.size_eq.trans total
  refine ⟨size, ?_, ?_, ?_, ?_, ?_, fun name id => recounts.lookup?_eq_some_iff,
    fun name id leads => recounts.exists_definition?_of_lookup? leads⟩
  · intro change isRegistration
    rw [recounts.answer_of_isRegistration isRegistration, total, Nat.add_right_comm]
  · intro fits id contains
    obtain ⟨declared, later, registers⟩ := (recounts.contains_iff_registers id).mp contains
    exact Nat.lt_of_le_of_lt (total ▸ registers.number_le) fits
  · intro id declared later registers
    exact ⟨fun other others again => again.unique registers, recounts.definition?_eq registers,
      declared.gainsMembers_withMembers _⟩
  · intro id unregistered
    rw [← recounts.contains_iff_registers, contains, Option.not_isSome_iff_eq_none] at unregistered
    exact unregistered
  · intro id member
    rw [← recounts.contains_iff_registers]
    constructor
    · intro contains
      rw [apply, insertMember, if_pos contains]
    · intro absent
      rw [apply, insertMember_of_not_contains absent]

/-- A field of a class that no other definition mentions. -/
def countField (name : String) : Member :=
  ⟨name, .raw ⟨15⟩, .field (.primitive .int)⟩

/-- A history in which a class is registered again under its name. -/
def renewed : List CatalogChange :=
  [.insertMember ⟨15⟩ (countField "early"), .insert (.ofClass "p/Box"),
    .insertMember ⟨15⟩ (countField "size"), .insert (.ofClass "p/Box"),
    .insertMember ⟨16⟩ (countField "other"), .insertMember ⟨15⟩ (countField "size")]

/-- The name leads to the new class, and the old one still gets members. -/
theorem standard_after_follows_history_of_renewed :
    (standard.after renewed).lookup? "p/Box" = some ⟨16⟩ ∧
      (standard.after renewed).definition? ⟨15⟩ =
        some ((Definition.ofClass "p/Box").withMembers [countField "size", countField "size"]) ∧
      (standard.after renewed).apply (.insertMember ⟨17⟩ (countField "late")) =
        (.known false, standard.after renewed) := by
  obtain ⟨-, -, -, definitions, -, members, names, -⟩ := standard_after_follows_history renewed
  have old : Registers (coreChanges ++ renewed) ⟨15⟩ (.ofClass "p/Box") (renewed.drop 2) :=
    ⟨coreChanges ++ renewed.take 1, _, rfl, rfl, rfl⟩
  have new : Registers (coreChanges ++ renewed) ⟨16⟩ (.ofClass "p/Box") (renewed.drop 4) :=
    ⟨coreChanges ++ renewed.take 3, _, rfl, rfl, rfl⟩
  have unregistered : ¬ ∃ declared later,
      Registers (coreChanges ++ renewed) ⟨17⟩ declared later := by
    rintro ⟨declared, later, registers⟩
    exact absurd registers.number_le (by decide)
  refine ⟨(names _ _).mpr ⟨⟨_, _, new, rfl⟩, ?_⟩, (definitions _ _ _ old).2.1,
    (members _ _).2 unregistered⟩
  intro other registers
  exact registers.number_le

end Catalog

end TypedJava
