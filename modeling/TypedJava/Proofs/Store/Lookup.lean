import TypedJava.Store.Edit

/-! # Looking into a changed store

What the views of a store show after each of its four elementary changes: adding a node, changing
one node, attaching a child and detaching it. -/

namespace TypedJava

namespace Slot

variable {α : Type}

theorem childrenIn_cons (slot : Slot α) (slots : List (Slot α)) (role : Role) :
    childrenIn (slot :: slots) role =
      if slot.role = role then slot.children else childrenIn slots role := by
  by_cases same : slot.role = role
  · simp [childrenIn, same]
  · simp [childrenIn, beq_eq_false_iff_ne.mpr same, same]

theorem childrenIn_nil (role : Role) : childrenIn ([] : List (Slot α)) role = [] :=
  rfl

/-- A role that no slot has holds nothing. -/
theorem childrenIn_of_not_mem
    {slots : List (Slot α)} {role : Role}
    (absent : role ∉ slots.map (·.role)) :
    childrenIn slots role = [] := by
  induction slots with
  | nil =>
      rfl
  | cons slot slots inductionHypothesis =>
      simp only [List.map_cons, List.mem_cons, not_or] at absent
      rw [childrenIn_cons, if_neg (Ne.symm absent.1), inductionHypothesis absent.2]

/-- Where no role has two slots, a slot holds what its role holds. -/
theorem childrenIn_of_mem
    {slots : List (Slot α)} (nodup : (slots.map (·.role)).Nodup)
    {slot : Slot α} (member : slot ∈ slots) :
    childrenIn slots slot.role = slot.children := by
  induction slots with
  | nil =>
      exact absurd member List.not_mem_nil
  | cons first slots inductionHypothesis =>
      rw [List.map_cons, List.nodup_cons] at nodup
      rw [childrenIn_cons]
      rcases List.mem_cons.mp member with same | later
      · rw [if_pos (congrArg (·.role) same).symm, same]
      · have different : first.role ≠ slot.role := fun same =>
          nodup.1 (same ▸ List.mem_map_of_mem later)
        rw [if_neg different, inductionHypothesis nodup.2 later]

/-- What is listed under some role stands in some slot. -/
theorem exists_slot_of_mem_childrenIn
    {slots : List (Slot α)} {role : Role} {child : α}
    (member : child ∈ childrenIn slots role) :
    ∃ slot ∈ slots, slot.role = role ∧ child ∈ slot.children := by
  induction slots with
  | nil =>
      exact absurd member List.not_mem_nil
  | cons slot slots inductionHypothesis =>
      rw [childrenIn_cons] at member
      by_cases same : slot.role = role
      · rw [if_pos same] at member
        exact ⟨slot, List.mem_cons_self, same, member⟩
      · rw [if_neg same] at member
        obtain ⟨found, later, properties⟩ := inductionHypothesis member
        exact ⟨found, List.mem_cons_of_mem _ later, properties⟩

end Slot

namespace Node

/-- All children with their roles, slot by slot. -/
def listing (node : Node) : List (Role × NodeId) :=
  node.slots.flatMap fun slot => slot.children.map fun child => (slot.role, child)

private theorem filter_listing
    (slots : List (Slot NodeId)) (nodup : (slots.map (·.role)).Nodup) (role : Role) :
    ((slots.flatMap fun slot => slot.children.map fun child => (slot.role, child)).filter
      fun entry => entry.1 = role).map (·.2) = Slot.childrenIn slots role := by
  induction slots with
  | nil =>
      rfl
  | cons slot slots inductionHypothesis =>
      rw [List.map_cons, List.nodup_cons] at nodup
      rw [List.flatMap_cons, List.filter_append, List.map_append, inductionHypothesis nodup.2,
        Slot.childrenIn_cons]
      by_cases same : slot.role = role
      · have later : Slot.childrenIn slots role = [] :=
          Slot.childrenIn_of_not_mem (same ▸ nodup.1)
        simp [same, later, List.filter_map, Function.comp_def]
      · simp [same, List.filter_map, Function.comp_def]

/-- The part of the listing that belongs to a role. -/
theorem childrenIn_eq_filter_listing
    {node : Node} (nodup : (node.slots.map (·.role)).Nodup) (role : Role) :
    (node.listing.filter fun entry => entry.1 = role).map (·.2) = node.childrenIn role :=
  filter_listing node.slots nodup role

theorem mem_listing_iff
    {node : Node} (nodup : (node.slots.map (·.role)).Nodup) {role : Role} {child : NodeId} :
    (role, child) ∈ node.listing ↔ child ∈ node.childrenIn role := by
  rw [← childrenIn_eq_filter_listing nodup]
  simp

theorem map_snd_listing (node : Node) : node.listing.map (·.2) = node.children := by
  simp [listing, children, List.map_flatMap, Function.comp_def]

/-- Changing a slot changes no role. -/
@[simp]
theorem map_role_updateSlot
    (node : Node) (role : Role) (change : List NodeId → List NodeId) :
    (node.updateSlot role change).slots.map (·.role) = node.slots.map (·.role) := by
  simp only [updateSlot, List.map_map]
  apply List.map_congr_left
  intro slot _
  by_cases same : slot.role = role <;> simp [same]

@[simp]
theorem payload_updateSlot
    (node : Node) (role : Role) (change : List NodeId → List NodeId) :
    (node.updateSlot role change).payload = node.payload :=
  rfl

@[simp]
theorem annotations_updateSlot
    (node : Node) (role : Role) (change : List NodeId → List NodeId) :
    (node.updateSlot role change).annotations = node.annotations :=
  rfl

@[simp]
theorem place_updateSlot
    (node : Node) (role : Role) (change : List NodeId → List NodeId) :
    (node.updateSlot role change).place = node.place :=
  rfl

/-- After a change of one slot, its role holds the changed list and all others what they held. -/
theorem childrenIn_updateSlot
    (node : Node) {changed : Role} (change : List NodeId → List NodeId)
    (present : changed ∈ node.slots.map (·.role)) (role : Role) :
    (node.updateSlot changed change).childrenIn role =
      if role = changed then change (node.childrenIn role) else node.childrenIn role := by
  have sameRole :
      ((fun slot : Slot NodeId => slot.role == role) ∘ fun slot =>
          if slot.role = changed then { slot with children := change slot.children } else slot) =
        fun slot => slot.role == role := by
    funext slot
    by_cases same : slot.role = changed <;> simp [same]
  simp only [childrenIn, updateSlot, Slot.childrenIn, List.find?_map, sameRole]
  cases found : node.slots.find? (·.role == role) with
  | none =>
      have different : role ≠ changed := by
        rintro rfl
        obtain ⟨slot, member, sameAsked⟩ := List.mem_map.mp present
        exact List.find?_eq_none.mp found slot member (beq_iff_eq.mpr sameAsked)
      simp [different]
  | some slot =>
      have asked : slot.role = role := by simpa using List.find?_some found
      by_cases same : role = changed <;> simp [asked, same]

@[simp]
theorem slots_ofPayload_roles (payload : Payload) :
    (ofPayload payload).slots.map (·.role) = payload.kind.roles := by
  simp [ofPayload, Function.comp_def]

@[simp]
theorem childrenIn_ofPayload (payload : Payload) (role : Role) :
    (ofPayload payload).childrenIn role = [] := by
  by_cases present : role ∈ (ofPayload payload).slots.map (·.role)
  · obtain ⟨slot, member, rfl⟩ := List.mem_map.mp present
    have nodup : ((ofPayload payload).slots.map (·.role)).Nodup := by
      rw [slots_ofPayload_roles]
      exact payload.kind.roles_nodup
    rw [childrenIn, Slot.childrenIn_of_mem nodup member]
    obtain ⟨role, _, rfl⟩ := List.mem_map.mp member
    rfl
  · exact Slot.childrenIn_of_not_mem present

end Node

namespace Store

@[simp]
theorem node?_none (store : Store) : store.node? none = none :=
  rfl

@[simp]
theorem node?_empty (reference : NodeRef) : empty.node? reference = none := by
  cases reference with
  | none =>
      rfl
  | some id =>
      simp [node?, empty]

/-- A reference leads to a node exactly below the size of the store. -/
theorem lt_size_iff {store : Store} {id : NodeId} :
    id < store.size ↔ (store.node? (some id)).isSome := by
  simp [node?, size]

theorem lt_size_of_node?
    {store : Store} {id : NodeId} {node : Node}
    (found : store.node? (some id) = some node) :
    id < store.size :=
  lt_size_iff.mpr (by simp [found])

theorem exists_id_of_node?
    {store : Store} {reference : NodeRef} {node : Node}
    (found : store.node? reference = some node) :
    ∃ id, reference = some id := by
  cases reference with
  | none =>
      cases found
  | some id =>
      exact ⟨id, rfl⟩

theorem exists_node?_of_lt_size
    {store : Store} {id : NodeId} (bound : id < store.size) :
    ∃ node, store.node? (some id) = some node :=
  Option.isSome_iff_exists.mp (lt_size_iff.mp bound)

theorem node?_size (store : Store) : store.node? (some store.size) = none := by
  simp [node?, size]

/-- Where there is no node there is no tree. -/
theorem tree?_eq_none
    {store : Store} {reference : NodeRef} (absent : store.node? reference = none) :
    store.tree? reference = none := by
  cases reference with
  | none =>
      rfl
  | some id =>
      rw [tree?]
      cases store.size with
      | zero =>
          rfl
      | succ fuel =>
          rw [treeWithin, absent, Option.map_none]

theorem place?_eq_some_iff
    {store : Store} {id : NodeId} {place : Place} :
    store.place? (some id) = some place ↔
      ∃ node, store.node? (some id) = some node ∧ node.place = some place := by
  simp [place?, Option.bind_eq_some_iff]

theorem lt_size_of_place?
    {store : Store} {id : NodeId} {place : Place}
    (placed : store.place? (some id) = some place) :
    id < store.size := by
  obtain ⟨_, found, _⟩ := place?_eq_some_iff.mp placed
  exact lt_size_of_node? found

theorem place?_of_node?
    {store : Store} {id : NodeId} {node : Node}
    (found : store.node? (some id) = some node) :
    store.place? (some id) = node.place := by
  simp [place?, found]

theorem childrenIn_of_node?
    {store : Store} {id : NodeId} {node : Node}
    (found : store.node? (some id) = some node) (role : Role) :
    store.childrenIn (some id) role = node.childrenIn role := by
  simp [childrenIn, found]

theorem lt_size_of_mem_childrenIn
    {store : Store} {id child : NodeId} {role : Role}
    (member : child ∈ store.childrenIn (some id) role) :
    id < store.size := by
  rw [lt_size_iff]
  cases found : store.node? (some id) with
  | none =>
      simp [childrenIn, found] at member
  | some node =>
      rfl

/-- A node has a parent exactly if it has a role. -/
theorem parent_eq_none_iff (store : Store) (reference : NodeRef) :
    store.parent reference = none ↔ store.role? reference = none := by
  simp [parent, role?]

/-! ## Frames -/

/-- A changed store still holds the nodes of a store as they were, apart from the touched ones. -/
structure Keeps (store changed : Store) (touched : NodeId → Prop) : Prop where
  size_le : store.size ≤ changed.size
  node_eq : ∀ id, id < store.size → ¬ touched id →
    changed.node? (some id) = store.node? (some id)

namespace Keeps

variable {store changed further : Store} {touched alsoTouched : NodeId → Prop}

theorem refl (store : Store) (touched : NodeId → Prop) : store.Keeps store touched :=
  ⟨Nat.le_refl _, fun _ _ _ => rfl⟩

theorem weaken
    (keeps : store.Keeps changed touched)
    (weaker : ∀ id, id < store.size → touched id → alsoTouched id) :
    store.Keeps changed alsoTouched :=
  ⟨keeps.size_le, fun id bound untouched =>
    keeps.node_eq id bound fun isTouched => untouched (weaker id bound isTouched)⟩

/-- Of a later change only what it touches of the first store counts. -/
theorem trans
    (first : store.Keeps changed touched) (second : changed.Keeps further alsoTouched)
    (weaker : ∀ id, id < store.size → alsoTouched id → touched id) :
    store.Keeps further touched :=
  ⟨Nat.le_trans first.size_le second.size_le, fun id bound untouched =>
    (second.node_eq id (Nat.lt_of_lt_of_le bound first.size_le) fun isTouched =>
      untouched (weaker id bound isTouched)).trans (first.node_eq id bound untouched)⟩

theorem node?_eq
    (keeps : store.Keeps changed touched) {id : NodeId} {node : Node}
    (found : store.node? (some id) = some node) (untouched : ¬ touched id) :
    changed.node? (some id) = some node := by
  rw [keeps.node_eq id (lt_size_of_node? found) untouched, found]

theorem childrenIn_eq
    (keeps : store.Keeps changed touched) {id : NodeId} (bound : id < store.size)
    (untouched : ¬ touched id) (role : Role) :
    changed.childrenIn (some id) role = store.childrenIn (some id) role := by
  simp only [childrenIn, keeps.node_eq id bound untouched]

theorem place?_eq
    (keeps : store.Keeps changed touched) {id : NodeId} (bound : id < store.size)
    (untouched : ¬ touched id) :
    changed.place? (some id) = store.place? (some id) := by
  simp only [place?, keeps.node_eq id bound untouched]

end Keeps

/-! ## Adding a node -/

@[simp]
theorem size_push (store : Store) (node : Node) : (store.push node).2.size = store.size + 1 := by
  simp [push, size]

theorem node?_push (store : Store) (node : Node) (id : NodeId) :
    (store.push node).2.node? (some id) =
      if id = store.size then some node else store.node? (some id) := by
  by_cases same : id = store.size
  · simp [push, node?, same, size]
  · rw [if_neg same]
    exact Array.getElem?_push.trans (if_neg same)

theorem node?_push_of_lt
    {store : Store} {id : NodeId} (bound : id < store.size) (node : Node) :
    (store.push node).2.node? (some id) = store.node? (some id) := by
  rw [node?_push, if_neg (Nat.ne_of_lt bound)]

theorem keeps_push (store : Store) (node : Node) (touched : NodeId → Prop) :
    store.Keeps (store.push node).2 touched :=
  ⟨Nat.le_of_lt (Nat.lt_of_lt_of_eq (Nat.lt_succ_self _) (size_push store node).symm),
    fun _ bound _ => node?_push_of_lt bound node⟩

/-! ## Changing a node -/

@[simp]
theorem size_update (store : Store) (id : NodeId) (change : Node → Node) :
    (store.update id change).size = store.size := by
  simp [update, size]

theorem node?_update (store : Store) (changed id : NodeId) (change : Node → Node) :
    (store.update changed change).node? (some id) =
      if id = changed then (store.node? (some id)).map change else store.node? (some id) := by
  simp only [node?, update, Array.getElem?_modify]
  by_cases same : changed = id
  · simp [same]
  · simp [same, Ne.symm same]

theorem keeps_update (store : Store) (id : NodeId) (change : Node → Node) :
    store.Keeps (store.update id change) fun other => other = id :=
  ⟨Nat.le_of_eq (size_update store id change).symm,
    fun other _ different => by rw [node?_update, if_neg different]⟩

theorem place?_update
    (store : Store) (changed id : NodeId) (change : Node → Node) :
    (store.update changed change).place? (some id) =
      if id = changed then (store.node? (some id)).bind fun node => (change node).place
      else store.place? (some id) := by
  simp only [place?, node?_update]
  by_cases same : id = changed
  · rw [if_pos same, if_pos same]
    exact Option.bind_map
  · rw [if_neg same, if_neg same]

/-! ## Attaching and detaching

An attachment or a detachment changes one list of the parent and the place of the child. What a
node holds besides its links is its label. -/

end Store

/-- What a node is apart from its links: its payload, its annotations and the roles of its
slots. -/
def Node.label (node : Node) : Payload × Annotations × List Role :=
  (node.payload, node.annotations, node.slots.map (·.role))

namespace Store

/-- The label of the node that a reference leads to. -/
def label? (store : Store) (reference : NodeRef) : Option (Payload × Annotations × List Role) :=
  (store.node? reference).map Node.label

theorem label?_update_of_eq
    {change : Node → Node} (keeps : ∀ node, (change node).label = node.label)
    (store : Store) (changed : NodeId) (reference : NodeRef) :
    (store.update changed change).label? reference = store.label? reference := by
  cases reference with
  | none =>
      rfl
  | some id =>
      simp only [label?, node?_update]
      by_cases same : id = changed
      · cases found : store.node? (some id) <;> simp [same, keeps]
      · simp [same]

@[simp]
theorem label?_attach
    (store : Store) (place : Place) (position : Nat) (child : NodeId) (reference : NodeRef) :
    (store.attach place position child).label? reference = store.label? reference := by
  rw [attach, label?_update_of_eq, label?_update_of_eq]
  · intro node
    simp [Node.label]
  · intro node
    rfl

@[simp]
theorem label?_detach
    (store : Store) (location : Location) (child : NodeId) (reference : NodeRef) :
    (store.detach location child).label? reference = store.label? reference := by
  rw [detach, label?_update_of_eq, label?_update_of_eq]
  · intro node
    simp [Node.label]
  · intro node
    rfl

@[simp]
theorem size_attach (store : Store) (place : Place) (position : Nat) (child : NodeId) :
    (store.attach place position child).size = store.size := by
  simp [attach]

@[simp]
theorem size_detach (store : Store) (location : Location) (child : NodeId) :
    (store.detach location child).size = store.size := by
  simp [detach]

theorem place?_attach
    {store : Store} {child : NodeId} (valid : child < store.size)
    (place : Place) (position : Nat) (id : NodeId) :
    (store.attach place position child).place? (some id) =
      if id = child then some place else store.place? (some id) := by
  rw [attach, place?_update]
  by_cases same : id = child
  · subst same
    obtain ⟨node, found⟩ := exists_node?_of_lt_size valid
    by_cases parent : id = place.parent
    · subst parent
      simp [node?_update, found]
    · simp [node?_update, found, parent]
  · rw [if_neg same, if_neg same, place?_update]
    by_cases parent : id = place.parent
    · simp [parent, place?]
    · rw [if_neg parent]

theorem place?_detach
    (store : Store) (location : Location) (child id : NodeId) :
    (store.detach location child).place? (some id) =
      if id = child then none else store.place? (some id) := by
  rw [detach, place?_update]
  by_cases same : id = child
  · subst same
    simp
  · rw [if_neg same, if_neg same, place?_update]
    by_cases parent : id = location.place.parent
    · simp [parent, place?]
    · rw [if_neg parent]

private theorem childrenIn_update_of_slots
    {change : Node → Node} (keeps : ∀ node, (change node).slots = node.slots)
    (store : Store) (changed : NodeId) (reference : NodeRef) (role : Role) :
    (store.update changed change).childrenIn reference role =
      store.childrenIn reference role := by
  cases reference with
  | none =>
      rfl
  | some id =>
      simp only [childrenIn, node?_update]
      by_cases same : id = changed
      · subst same
        cases found : store.node? (some id) <;> simp [Node.childrenIn, keeps]
      · simp [same]

/-- The lists of children after one list of a node has been changed. -/
theorem childrenIn_update_updateSlot
    {store : Store} {place : Place} {node : Node}
    (found : store.node? (some place.parent) = some node)
    (present : place.role ∈ node.slots.map (·.role))
    (change : List NodeId → List NodeId) (id : NodeId) (role : Role) :
    (store.update place.parent (·.updateSlot place.role change)).childrenIn (some id) role =
      if id = place.parent ∧ role = place.role then change (store.childrenIn (some id) role)
      else store.childrenIn (some id) role := by
  simp only [childrenIn, node?_update]
  by_cases same : id = place.parent
  · subst same
    simp [found, Node.childrenIn_updateSlot node change present]
  · simp [same]

theorem childrenIn_attach
    {store : Store} {place : Place} {node : Node}
    (found : store.node? (some place.parent) = some node)
    (present : place.role ∈ node.slots.map (·.role))
    (position : Nat) (child id : NodeId) (role : Role) :
    (store.attach place position child).childrenIn (some id) role =
      if id = place.parent ∧ role = place.role then
        insertAt position child (store.childrenIn (some id) role)
      else store.childrenIn (some id) role := by
  rw [attach, childrenIn_update_of_slots, childrenIn_update_updateSlot found present]
  intro node
  rfl

theorem childrenIn_detach
    {store : Store} {location : Location} {node : Node}
    (found : store.node? (some location.place.parent) = some node)
    (present : location.place.role ∈ node.slots.map (·.role))
    (child id : NodeId) (role : Role) :
    (store.detach location child).childrenIn (some id) role =
      if id = location.place.parent ∧ role = location.place.role then
        (store.childrenIn (some id) role).eraseIdx location.position
      else store.childrenIn (some id) role := by
  rw [detach, childrenIn_update_of_slots, childrenIn_update_updateSlot found present]
  intro node
  rfl

/-- Nodes other than the parent and the child stay as they are. -/
theorem node?_attach_of_ne
    {store : Store} {place : Place} {child id : NodeId}
    (notParent : id ≠ place.parent) (notChild : id ≠ child) (position : Nat) :
    (store.attach place position child).node? (some id) = store.node? (some id) := by
  rw [attach, node?_update, if_neg notChild, node?_update, if_neg notParent]

theorem node?_detach_of_ne
    {store : Store} {location : Location} {child id : NodeId}
    (notParent : id ≠ location.place.parent) (notChild : id ≠ child) :
    (store.detach location child).node? (some id) = store.node? (some id) := by
  rw [detach, node?_update, if_neg notChild, node?_update, if_neg notParent]

end Store

end TypedJava
