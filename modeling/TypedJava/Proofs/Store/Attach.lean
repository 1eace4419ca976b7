import TypedJava.Proofs.Store.WellFormed

/-! # Attaching and detaching keep a store well-formed

A child may be attached where no rule of the store stands against it. The path upwards of the new
parent does not pass the child, so all paths still end. -/

namespace TypedJava

namespace Store

variable {store : Store}

/-! ## Adding a node -/

@[simp]
theorem label?_push (node : Node) (id : NodeId) :
    (store.push node).2.label? (some id) =
      if id = store.size then some node.label else store.label? (some id) := by
  rw [label?, node?_push]
  by_cases same : id = store.size
  · simp [same]
  · simp [same, label?]

theorem place?_push_of_unplaced {node : Node} (unplaced : node.place = none) (id : NodeId) :
    (store.push node).2.place? (some id) = store.place? (some id) := by
  rw [place?, node?_push]
  by_cases same : id = store.size
  · simp [same, unplaced, place?, node?_size]
  · simp [same, place?]

theorem childrenIn_push_of_childless
    {node : Node} (childless : ∀ role, node.childrenIn role = []) (id : NodeId) (role : Role) :
    (store.push node).2.childrenIn (some id) role = store.childrenIn (some id) role := by
  rw [childrenIn, node?_push]
  by_cases same : id = store.size
  · simp [same, childless, childrenIn, node?_size]
  · simp [same, childrenIn]

/-- Stores with the same labels have the same slots. -/
theorem slots_match_of_label
    (slots_match : ∀ id node, store.node? (some id) = some node →
      node.slots.map (·.role) = node.kind.roles)
    {changed : Store} (same : ∀ id, changed.label? (some id) = store.label? (some id))
    (id : NodeId) (node : Node) (found : changed.node? (some id) = some node) :
    node.slots.map (·.role) = node.kind.roles := by
  have sameLabel := same id
  rw [label?, found, label?] at sameLabel
  cases before : store.node? (some id) with
  | none =>
      simp [before] at sameLabel
  | some original =>
      simp only [before, Option.map_some, Option.some.injEq, Node.label, Prod.mk.injEq]
        at sameLabel
      obtain ⟨samePayload, _, sameRoles⟩ := sameLabel
      rw [sameRoles, slots_match id original before, Node.kind, Node.kind, samePayload]

/-- Stores with the same places have the same paths. -/
theorem Rooted.of_place?_eq
    {changed : Store} (same : ∀ id, changed.place? (some id) = store.place? (some id))
    {id : NodeId} (rooted : store.Rooted id) :
    changed.Rooted id := by
  induction rooted with
  | root unplaced =>
      exact .root ((same _).trans unplaced)
  | step placed _ inductionHypothesis =>
      exact .step ((same _).trans placed) inductionHypothesis

/-- A store with the same links is well-formed if its slots are right. -/
theorem WellFormed.of_same_links
    (wellFormed : store.WellFormed) {changed : Store}
    (slots_match : ∀ id node, changed.node? (some id) = some node →
      node.slots.map (·.role) = node.kind.roles)
    (samePlace : ∀ id, changed.place? (some id) = store.place? (some id))
    (sameChildren : ∀ id role,
      changed.childrenIn (some id) role = store.childrenIn (some id) role) :
    changed.WellFormed where
  slots_match := slots_match
  single id role one := by
    rw [sameChildren]
    exact wellFormed.single id role one
  listed id role child member := by
    rw [sameChildren] at member
    rw [samePlace]
    exact wellFormed.listed id role child member
  placed child place placed := by
    rw [samePlace] at placed
    rw [sameChildren]
    exact wellFormed.placed child place placed
  paired reference := parent_eq_none_iff _ reference
  rooted id := (wellFormed.rooted id).of_place?_eq samePlace

/-- A node that stands alone may be added. -/
theorem WellFormed.push
    (wellFormed : store.WellFormed) {node : Node}
    (slots_match : node.slots.map (·.role) = node.kind.roles)
    (unplaced : node.place = none) (childless : ∀ role, node.childrenIn role = []) :
    (store.push node).2.WellFormed := by
  refine wellFormed.of_same_links ?_ (place?_push_of_unplaced unplaced)
    (childrenIn_push_of_childless childless)
  intro id found foundNode
  rw [node?_push] at foundNode
  by_cases same : id = store.size
  · rw [if_pos same] at foundNode
    cases foundNode
    exact slots_match
  · rw [if_neg same] at foundNode
    exact wellFormed.slots_match id found foundNode

theorem WellFormed.push_ofPayload (wellFormed : store.WellFormed) (payload : Payload) :
    (store.push (.ofPayload payload)).2.WellFormed :=
  wellFormed.push (Node.slots_ofPayload_roles payload) rfl (Node.childrenIn_ofPayload payload)

/-- A change of annotations changes no link. -/
theorem WellFormed.annotate
    (wellFormed : store.WellFormed) (changed : NodeId) (change : Annotations → Annotations) :
    (store.update changed fun node =>
      { node with annotations := change node.annotations }).WellFormed := by
  apply wellFormed.of_same_links
  · intro id node found
    rw [node?_update] at found
    by_cases same : id = changed
    · rw [if_pos same, Option.map_eq_some_iff] at found
      obtain ⟨original, before, rfl⟩ := found
      exact wellFormed.slots_match id original before
    · rw [if_neg same] at found
      exact wellFormed.slots_match id node found
  · intro id
    rw [place?_update]
    by_cases same : id = changed <;> simp [same, place?]
  · intro id role
    simp only [childrenIn, node?_update]
    by_cases same : id = changed
    · subst same
      cases found : store.node? (some id) <;> simp [Node.childrenIn]
    · simp [same]

/-! ## Attaching -/

section InsertAt

variable {α : Type}

theorem insertAt_perm (position : Nat) (item : α) (items : List α) :
    (insertAt position item items).Perm (item :: items) := by
  have middle : (insertAt position item items).Perm
      (item :: (items.take position ++ items.drop position)) :=
    List.perm_middle
  rwa [List.take_append_drop] at middle

theorem mem_insertAt {position : Nat} {item found : α} {items : List α} :
    found ∈ insertAt position item items ↔ found = item ∨ found ∈ items := by
  rw [(insertAt_perm position item items).mem_iff, List.mem_cons]

theorem insertAt_length (items : List α) (item : α) :
    insertAt items.length item items = items ++ [item] := by
  simp [insertAt]

end InsertAt

/-- Nothing stands against attaching a child to a parent. -/
structure Attachable (store : Store) (place : Place) (child : NodeId) : Prop where
  valid : child < store.size
  unplaced : store.place? (some child) = none
  hasRole : ∃ node, store.node? (some place.parent) = some node ∧
    place.role ∈ node.slots.map (·.role)
  notAbove : ¬ store.Above child place.parent
  room : place.role.holdsMany = false → store.childrenIn (some place.parent) place.role = []

namespace WellFormed

theorem not_mem_childrenIn
    (wellFormed : store.WellFormed) {child : NodeId} (unplaced : store.place? (some child) = none)
    (id : NodeId) (role : Role) :
    child ∉ store.childrenIn (some id) role := by
  intro member
  have placed := wellFormed.listed id role child member
  rw [unplaced] at placed
  exact absurd placed (by simp)

theorem attachable_of_attachError?
    (wellFormed : store.WellFormed) (place : Place) {child : NodeId}
    (allowed : store.attachError? (some place.parent) place.role (some child) = none) :
    store.Attachable place child := by
  rw [attachError?, Option.or_eq_none_iff] at allowed
  obtain ⟨roleAllowed, childAllowed⟩ := allowed
  cases foundParent : store.node? (some place.parent) with
  | none =>
      simp [roleError?, foundParent] at roleAllowed
  | some parent =>
      cases foundChild : store.node? (some child) with
      | none =>
          simp [foundChild] at childAllowed
      | some node =>
          have hasRole : place.role ∈ parent.slots.map (·.role) := by
            rw [wellFormed.role_mem_of_node? foundParent]
            simpa [roleError?, foundParent] using roleAllowed
          simp only [foundChild] at childAllowed
          split at childAllowed
          · exact absurd childAllowed (by simp)
          · split at childAllowed
            · exact absurd childAllowed (by simp)
            · split at childAllowed
              · exact absurd childAllowed (by simp)
              · rename_i unplaced notCyclic room
                refine ⟨lt_size_of_node? foundChild, ?_, ⟨parent, foundParent, hasRole⟩, ?_, ?_⟩
                · simpa [place?_of_node? foundChild] using unplaced
                · intro above
                  exact notCyclic (wellFormed.isAtOrAbove_iff.mpr ⟨child, rfl, above⟩)
                · intro single
                  simpa [single] using room

/-- A node without children is above no other node. -/
theorem not_above_of_childless
    (wellFormed : store.WellFormed) {ancestor id : NodeId}
    (childless : ∀ role, store.childrenIn (some ancestor) role = []) (different : ancestor ≠ id) :
    ¬ store.Above ancestor id := by
  intro above
  induction above with
  | refl =>
      exact different rfl
  | @step id place placed _ inductionHypothesis =>
      apply inductionHypothesis
      rintro rfl
      have member := wellFormed.mem_childrenIn placed
      rw [childless] at member
      exact List.not_mem_nil member

/-- Where a child is attachable, no rule stands against it. -/
theorem attachError?_eq_none
    (wellFormed : store.WellFormed) {place : Place} {child : NodeId}
    (attachable : store.Attachable place child) :
    store.attachError? (some place.parent) place.role (some child) = none := by
  obtain ⟨parent, foundParent, hasRole⟩ := attachable.hasRole
  obtain ⟨node, foundChild⟩ := exists_node?_of_lt_size attachable.valid
  have unplaced : node.place = none := by
    rw [← place?_of_node? foundChild, attachable.unplaced]
  have notCyclic : store.isAtOrAbove (some child) (some place.parent) = false := by
    rw [Bool.eq_false_iff]
    intro above
    obtain ⟨found, same, foundAbove⟩ := wellFormed.isAtOrAbove_iff.mp above
    cases same
    exact attachable.notAbove foundAbove
  have room : (!place.role.holdsMany &&
      !(store.childrenIn (some place.parent) place.role).isEmpty) = false := by
    cases many : place.role.holdsMany with
    | true =>
        rfl
    | false =>
        simp [attachable.room many]
  rw [wellFormed.role_mem_of_node? foundParent] at hasRole
  simp [attachError?, roleError?, foundParent, foundChild, hasRole, unplaced, notCyclic, room]

/-- Paths upwards that do not pass the child stay as they are. -/
private theorem rooted_attach_of_not_above
    {place : Place} {child : NodeId} (valid : child < store.size) (position : Nat)
    {id : NodeId} (rooted : store.Rooted id) (notAbove : ¬ store.Above child id) :
    (store.attach place position child).Rooted id := by
  induction rooted with
  | @root id unplaced =>
      have different : id ≠ child := fun same => notAbove (same ▸ .refl)
      exact .root (by rw [place?_attach valid, if_neg different, unplaced])
  | @step id upper placed _ inductionHypothesis =>
      have different : id ≠ child := fun same => notAbove (same ▸ .refl)
      have stillPlaced : (store.attach place position child).place? (some id) = some upper := by
        rw [place?_attach valid, if_neg different, placed]
      exact .step stillPlaced (inductionHypothesis fun above => notAbove (.step placed above))

theorem attach
    (wellFormed : store.WellFormed) {place : Place} {child : NodeId}
    (attachable : store.Attachable place child) (position : Nat) :
    (store.attach place position child).WellFormed := by
  obtain ⟨parent, found, present⟩ := attachable.hasRole
  have absent := wellFormed.not_mem_childrenIn attachable.unplaced
  constructor
  case slots_match =>
    exact slots_match_of_label wellFormed.slots_match fun id =>
      label?_attach store place position child (some id)
  case single =>
    intro id role one
    rw [childrenIn_attach found present]
    split
    · rename_i here
      obtain ⟨rfl, rfl⟩ := here
      rw [attachable.room one, (insertAt_perm position child []).length_eq]
      exact Nat.le_refl 1
    · exact wellFormed.single id role one
  case listed =>
    intro id role other member
    rw [childrenIn_attach found present] at member
    rw [place?_attach attachable.valid]
    by_cases same : other = child
    · rw [if_pos same]
      split at member
      · rename_i here
        rw [here.1, here.2]
      · exact absurd (same ▸ member) (absent id role)
    · rw [if_neg same]
      split at member
      · exact wellFormed.listed id role other ((mem_insertAt.mp member).resolve_left same)
      · exact wellFormed.listed id role other member
  case placed =>
    intro other otherPlace placed
    rw [place?_attach attachable.valid] at placed
    rw [childrenIn_attach found present]
    by_cases same : other = child
    · rw [if_pos same, Option.some.injEq] at placed
      rw [← placed, if_pos ⟨rfl, rfl⟩, same, (insertAt_perm _ _ _).count_eq,
        List.count_cons_self, List.count_eq_zero_of_not_mem (absent _ _)]
    · rw [if_neg same] at placed
      have once := wellFormed.placed other otherPlace placed
      split
      · rw [(insertAt_perm _ _ _).count_eq, List.count_cons_of_ne (Ne.symm same), once]
      · exact once
  case paired =>
    exact fun reference => parent_eq_none_iff _ reference
  case rooted =>
    intro id
    have parentRooted : (store.attach place position child).Rooted place.parent :=
      rooted_attach_of_not_above attachable.valid position (wellFormed.rooted _)
        attachable.notAbove
    induction wellFormed.rooted id with
    | @root id unplaced =>
        by_cases same : id = child
        · have nowPlaced : (store.attach place position child).place? (some id) = some place := by
            rw [place?_attach attachable.valid, if_pos same]
          exact .step nowPlaced parentRooted
        · refine .root ?_
          rw [place?_attach attachable.valid, if_neg same, unplaced]
    | @step id upper placed _ inductionHypothesis =>
        have different : id ≠ child := by
          rintro rfl
          rw [attachable.unplaced] at placed
          exact absurd placed (by simp)
        have stillPlaced : (store.attach place position child).place? (some id) = some upper := by
          rw [place?_attach attachable.valid, if_neg different, placed]
        exact .step stillPlaced inductionHypothesis

/-! ## Detaching -/

/-- A node with a place has a location there. -/
theorem exists_location?
    (wellFormed : store.WellFormed) {id : NodeId} {place : Place}
    (placed : store.place? (some id) = some place) :
    ∃ position, store.location? (some id) = some ⟨place, position⟩ := by
  have member := wellFormed.mem_childrenIn placed
  obtain ⟨position, found⟩ := Option.isSome_iff_exists.mp (List.isSome_idxOf?.mpr member)
  exact ⟨position, by simp [location?, placed, found]⟩

end WellFormed

theorem location?_eq_some
    {id : NodeId} {location : Location}
    (located : store.location? (some id) = some location) :
    store.place? (some id) = some location.place ∧
      (store.childrenIn (some location.place.parent) location.place.role).idxOf? id =
        some location.position := by
  cases placed : store.place? (some id) with
  | none =>
      simp [location?, placed] at located
  | some place =>
      simp only [location?, placed, Option.map_eq_some_iff] at located
      obtain ⟨position, found, rfl⟩ := located
      exact ⟨rfl, found⟩

/-- Cutting out the position of a child erases the child. -/
theorem eraseIdx_position
    {id : NodeId} {location : Location}
    (located : store.location? (some id) = some location) :
    (store.childrenIn (some location.place.parent) location.place.role).eraseIdx
        location.position =
      (store.childrenIn (some location.place.parent) location.place.role).erase id := by
  rw [List.erase_eq_eraseIdx, (location?_eq_some located).2]

namespace WellFormed

/-- The lists of children after a detachment. -/
theorem childrenIn_detach
    (wellFormed : store.WellFormed) {child : NodeId} {location : Location}
    (located : store.location? (some child) = some location) (id : NodeId) (role : Role) :
    (store.detach location child).childrenIn (some id) role =
      (store.childrenIn (some id) role).erase child := by
  obtain ⟨placed, _⟩ := location?_eq_some located
  obtain ⟨parent, found, present⟩ := wellFormed.exists_parent placed
  rw [Store.childrenIn_detach found present]
  split
  · rename_i here
    rw [here.1, here.2, eraseIdx_position located]
  · rename_i elsewhere
    rw [List.erase_of_not_mem]
    intro member
    have listed := wellFormed.listed id role child member
    rw [placed, Option.some.injEq] at listed
    exact elsewhere (by simp [listed])

theorem detach
    (wellFormed : store.WellFormed) {child : NodeId} {location : Location}
    (located : store.location? (some child) = some location) :
    (store.detach location child).WellFormed := by
  have children := wellFormed.childrenIn_detach located
  constructor
  case slots_match =>
    exact slots_match_of_label wellFormed.slots_match fun id =>
      label?_detach store location child (some id)
  case single =>
    intro id role one
    rw [children]
    exact Nat.le_trans List.erase_sublist.length_le (wellFormed.single id role one)
  case listed =>
    intro id role other member
    rw [children] at member
    have original := wellFormed.listed id role other (List.mem_of_mem_erase member)
    have different : other ≠ child :=
      ((wellFormed.childrenIn_nodup id role).mem_erase_iff.mp member).1
    rw [place?_detach, if_neg different, original]
  case placed =>
    intro other place placed
    rw [place?_detach] at placed
    by_cases same : other = child
    · rw [if_pos same] at placed
      exact absurd placed (by simp)
    · rw [if_neg same] at placed
      rw [children, List.count_erase_of_ne same]
      exact wellFormed.placed other place placed
  case paired =>
    exact fun reference => parent_eq_none_iff _ reference
  case rooted =>
    intro id
    induction wellFormed.rooted id with
    | @root id unplaced =>
        refine .root ?_
        rw [place?_detach, unplaced, ite_self]
    | @step id upper placed _ inductionHypothesis =>
        by_cases same : id = child
        · exact .root (by rw [place?_detach, if_pos same])
        · have stillPlaced : (store.detach location child).place? (some id) = some upper := by
            rw [place?_detach, if_neg same, placed]
          exact .step stillPlaced inductionHypothesis

end WellFormed

end Store

end TypedJava
