import Mathlib.Data.List.Nodup
import Mathlib.Data.List.Perm.Subperm
import TypedJava.Proofs.Store.Lookup

/-! # Well-formed stores

Places and lists of children are two views of one tree. A store is well-formed if the two views
agree and every path upwards ends. The path upwards of a node then never repeats a node, which is
why the bounded walks of the store see all of it. -/

namespace TypedJava

namespace Store

/-- The path upwards from a node passes another one, or starts there. -/
inductive Above (store : Store) (ancestor : NodeId) : NodeId → Prop
  | refl : Above store ancestor ancestor
  | step {id : NodeId} {place : Place} :
      store.place? (some id) = some place →
      Above store ancestor place.parent →
      Above store ancestor id

/-- The path upwards from a node reaches a node without a place. -/
inductive Rooted (store : Store) : NodeId → Prop
  | root {id : NodeId} : store.place? (some id) = none → Rooted store id
  | step {id : NodeId} {place : Place} :
      store.place? (some id) = some place → Rooted store place.parent → Rooted store id

/-- The rules that tie places and lists of children together. -/
structure WellFormed (store : Store) : Prop where
  /-- A node has one slot for each role of its kind, in their order. -/
  slots_match : ∀ id node, store.node? (some id) = some node →
    node.slots.map (·.role) = node.kind.roles
  /-- A single role holds at most one child. -/
  single : ∀ id role, role.holdsMany = false → (store.childrenIn (some id) role).length ≤ 1
  /-- What a node lists is a node whose place is there. -/
  listed : ∀ id role child, child ∈ store.childrenIn (some id) role →
    store.place? (some child) = some ⟨id, role⟩
  /-- A node with a place is listed there once. -/
  placed : ∀ child place, store.place? (some child) = some place →
    (store.childrenIn (some place.parent) place.role).count child = 1
  /-- A node has a parent exactly if it has a role. -/
  paired : ∀ reference, store.parent reference = none ↔ store.role? reference = none
  /-- Every path upwards ends. -/
  rooted : ∀ id, store.Rooted id

/-! ## Paths upwards -/

namespace Above

variable {store : Store}

theorem parent
    {id : NodeId} {place : Place} (placed : store.place? (some id) = some place) :
    store.Above place.parent id :=
  .step placed .refl

theorem trans
    {upper middle lower : NodeId}
    (first : store.Above upper middle) (second : store.Above middle lower) :
    store.Above upper lower := by
  induction second with
  | refl =>
      exact first
  | step placed _ inductionHypothesis =>
      exact .step placed inductionHypothesis

/-- Above a node without a place there is only the node itself. -/
theorem eq_of_place?_none
    {ancestor id : NodeId} (above : store.Above ancestor id)
    (unplaced : store.place? (some id) = none) :
    ancestor = id := by
  cases above with
  | refl =>
      rfl
  | step placed _ =>
      rw [unplaced] at placed
      exact absurd placed (by simp)

/-- Above a node that is not the node itself is above its parent. -/
theorem above_parent
    {ancestor id : NodeId} {place : Place} (above : store.Above ancestor id)
    (placed : store.place? (some id) = some place) (different : ancestor ≠ id) :
    store.Above ancestor place.parent := by
  cases above with
  | refl =>
      exact absurd rfl different
  | step otherPlaced further =>
      rw [placed] at otherPlaced
      cases otherPlaced
      exact further

end Above

/-- On a path that ends, no node is above its own parent. -/
theorem Rooted.not_above_parent
    {store : Store} {id : NodeId} (rooted : store.Rooted id)
    {place : Place} (placed : store.place? (some id) = some place) :
    ¬ store.Above id place.parent := by
  induction rooted generalizing place with
  | root unplaced =>
      rw [unplaced] at placed
      exact absurd placed (by simp)
  | step otherPlaced _ inductionHypothesis =>
      rw [placed] at otherPlaced
      cases otherPlaced
      intro above
      cases above with
      | refl =>
          exact inductionHypothesis placed .refl
      | step parentPlaced further =>
          exact inductionHypothesis parentPlaced ((Above.parent placed).trans further)

/-- The nodes on the path upwards from a node, the node first. -/
inductive Path (store : Store) : NodeId → List NodeId → Prop
  | root {id : NodeId} : store.place? (some id) = none → Path store id [id]
  | step {id : NodeId} {place : Place} {rest : List NodeId} :
      store.place? (some id) = some place → Path store place.parent rest →
      Path store id (id :: rest)

theorem Rooted.exists_path
    {store : Store} {id : NodeId} (rooted : store.Rooted id) :
    ∃ path, store.Path id path := by
  induction rooted with
  | root unplaced =>
      exact ⟨_, .root unplaced⟩
  | step placed _ inductionHypothesis =>
      obtain ⟨rest, path⟩ := inductionHypothesis
      exact ⟨_, .step placed path⟩

namespace Path

variable {store : Store} {id : NodeId} {path : List NodeId}

theorem mem_iff_above (isPath : store.Path id path) {ancestor : NodeId} :
    ancestor ∈ path ↔ store.Above ancestor id := by
  induction isPath with
  | root unplaced =>
      rw [List.mem_singleton]
      exact ⟨fun same => same ▸ .refl, fun above => above.eq_of_place?_none unplaced⟩
  | @step id place rest placed _ inductionHypothesis =>
      rw [List.mem_cons, inductionHypothesis]
      constructor
      · rintro (same | above)
        · exact same ▸ .refl
        · exact .step placed above
      · intro above
        by_cases same : ancestor = id
        · exact Or.inl same
        · exact Or.inr (above.above_parent placed same)

theorem rooted (isPath : store.Path id path) : store.Rooted id := by
  induction isPath with
  | root unplaced =>
      exact .root unplaced
  | step placed _ inductionHypothesis =>
      exact .step placed inductionHypothesis

theorem nodup (isPath : store.Path id path) : path.Nodup := by
  induction isPath with
  | root _ =>
      exact List.nodup_singleton _
  | step placed further inductionHypothesis =>
      refine List.nodup_cons.mpr ⟨fun member => ?_, inductionHypothesis⟩
      exact Rooted.not_above_parent (.step placed further.rooted) placed
        (further.mem_iff_above.mp member)

theorem length_pos (isPath : store.Path id path) : 0 < path.length := by
  cases isPath <;> simp

/-- With enough fuel, the walk upwards meets exactly the nodes of the path. -/
theorem isAtOrAboveWithin_eq
    (isPath : store.Path id path) (ancestor : NodeRef) {fuel : Nat}
    (enough : path.length ≤ fuel) :
    store.isAtOrAboveWithin ancestor fuel (some id) = path.any fun node => ancestor == some node := by
  induction isPath generalizing fuel with
  | @root id unplaced =>
      obtain ⟨fuel, rfl⟩ := Nat.exists_eq_add_of_le' enough
      have noParent : store.parent (some id) = none := by simp [parent, unplaced]
      cases fuel <;> simp [isAtOrAboveWithin, noParent]
  | @step id place rest placed _ inductionHypothesis =>
      obtain ⟨fuel, rfl⟩ := Nat.exists_eq_add_of_le' enough
      have hasParent : store.parent (some id) = some place.parent := by simp [parent, placed]
      simp only [List.length_cons, ← Nat.add_assoc, isAtOrAboveWithin, hasParent, List.any_cons]
      rw [inductionHypothesis (by omega)]

/-- With enough fuel, the climb ends at the last node of the path. -/
theorem rootWithin_eq
    (isPath : store.Path id path) {fuel : Nat} (enough : path.length ≤ fuel + 1) :
    store.rootWithin fuel (some id) = path.getLast? := by
  induction isPath generalizing fuel with
  | @root id unplaced =>
      have noParent : store.parent (some id) = none := by simp [parent, unplaced]
      cases fuel <;> simp [rootWithin, noParent]
  | @step id place rest placed further inductionHypothesis =>
      have positive := further.length_pos
      have hasParent : store.parent (some id) = some place.parent := by simp [parent, placed]
      cases fuel with
      | zero =>
          simp only [List.length_cons] at enough
          omega
      | succ fuel =>
          rw [rootWithin, hasParent]
          simp only
          rw [inductionHypothesis (by simpa using enough), List.getLast?_cons]
          cases rest with
          | nil =>
              exact absurd positive (by simp)
          | cons first rest =>
              simp [List.getLast?_cons]

end Path

/-! ## Consequences of well-formedness -/

/-- Different numbers below a bound are no more than the bound. -/
private theorem length_le_of_nodup
    {items : List NodeId} {bound : Nat} (nodup : items.Nodup)
    (below : ∀ item ∈ items, item < bound) :
    items.length ≤ bound := by
  have inside : items ⊆ List.range bound := fun item member =>
    List.mem_range.mpr (below item member)
  have short := (nodup.subperm inside).length_le
  rwa [List.length_range] at short

namespace WellFormed

variable {store : Store}

theorem role_mem_of_node?
    (wellFormed : store.WellFormed) {id : NodeId} {node : Node}
    (found : store.node? (some id) = some node) {role : Role} :
    role ∈ node.slots.map (·.role) ↔ role ∈ node.kind.roles := by
  rw [wellFormed.slots_match id node found]

theorem roles_nodup
    (wellFormed : store.WellFormed) {id : NodeId} {node : Node}
    (found : store.node? (some id) = some node) :
    (node.slots.map (·.role)).Nodup := by
  rw [wellFormed.slots_match id node found]
  exact node.kind.roles_nodup

/-- A node with a place is listed there. -/
theorem mem_childrenIn
    (wellFormed : store.WellFormed) {child : NodeId} {place : Place}
    (placed : store.place? (some child) = some place) :
    child ∈ store.childrenIn (some place.parent) place.role := by
  apply List.count_pos_iff.mp
  rw [wellFormed.placed child place placed]
  exact Nat.one_pos

theorem mem_childrenIn_iff
    (wellFormed : store.WellFormed) {id child : NodeId} {role : Role} :
    child ∈ store.childrenIn (some id) role ↔
      store.place? (some child) = some ⟨id, role⟩ :=
  ⟨wellFormed.listed id role child, fun placed => wellFormed.mem_childrenIn placed⟩

/-- The children in a role are all different. -/
theorem childrenIn_nodup (wellFormed : store.WellFormed) (id : NodeId) (role : Role) :
    (store.childrenIn (some id) role).Nodup := by
  rw [List.nodup_iff_count_le_one]
  intro child
  by_cases member : child ∈ store.childrenIn (some id) role
  · exact Nat.le_of_eq (wellFormed.placed child ⟨id, role⟩ (wellFormed.listed id role child member))
  · rw [List.count_eq_zero_of_not_mem member]
    exact Nat.zero_le 1

/-- A role never holds more children than there are nodes. -/
theorem length_childrenIn_le_size
    (wellFormed : store.WellFormed) (id : NodeId) (role : Role) :
    (store.childrenIn (some id) role).length ≤ store.size := by
  apply length_le_of_nodup (wellFormed.childrenIn_nodup id role)
  intro child member
  exact lt_size_of_place? (wellFormed.listed id role child member)

theorem parent_lt_size
    (wellFormed : store.WellFormed) {child : NodeId} {place : Place}
    (placed : store.place? (some child) = some place) :
    place.parent < store.size :=
  lt_size_of_mem_childrenIn (wellFormed.mem_childrenIn placed)

/-- The parent of a node has the role of the node. -/
theorem exists_parent
    (wellFormed : store.WellFormed) {child : NodeId} {place : Place}
    (placed : store.place? (some child) = some place) :
    ∃ node, store.node? (some place.parent) = some node ∧
      place.role ∈ node.slots.map (·.role) := by
  obtain ⟨node, found⟩ := exists_node?_of_lt_size (wellFormed.parent_lt_size placed)
  refine ⟨node, found, ?_⟩
  have member := wellFormed.mem_childrenIn placed
  rw [childrenIn_of_node? found] at member
  obtain ⟨slot, slotMember, sameRole, _⟩ := Slot.exists_slot_of_mem_childrenIn member
  exact sameRole ▸ List.mem_map_of_mem slotMember

/-- No node is above its own parent. -/
theorem not_above_parent
    (wellFormed : store.WellFormed) {id : NodeId} {place : Place}
    (placed : store.place? (some id) = some place) :
    ¬ store.Above id place.parent :=
  (wellFormed.rooted id).not_above_parent placed

theorem above_lt_size
    (wellFormed : store.WellFormed) {ancestor id : NodeId}
    (above : store.Above ancestor id) (bound : id < store.size) :
    ancestor < store.size := by
  induction above with
  | refl =>
      exact bound
  | step placed _ inductionHypothesis =>
      exact inductionHypothesis (wellFormed.parent_lt_size placed)

theorem above_antisymm
    (wellFormed : store.WellFormed) {first second : NodeId}
    (down : store.Above first second) (up : store.Above second first) :
    first = second := by
  cases down with
  | refl =>
      rfl
  | step placed above =>
      exact absurd (up.trans above) (wellFormed.not_above_parent placed)

/-- No path of a node is longer than the store. -/
theorem path_length_le_size
    (wellFormed : store.WellFormed) {id : NodeId} {path : List NodeId}
    (isPath : store.Path id path) (bound : id < store.size) :
    path.length ≤ store.size := by
  apply length_le_of_nodup isPath.nodup
  intro node member
  exact wellFormed.above_lt_size (isPath.mem_iff_above.mp member) bound

/-- The path of a reference that leads nowhere has one step. -/
theorem path_length_le
    (wellFormed : store.WellFormed) {id : NodeId} {path : List NodeId}
    (isPath : store.Path id path) :
    path.length ≤ max 1 store.size := by
  by_cases bound : id < store.size
  · exact Nat.le_trans (wellFormed.path_length_le_size isPath bound) (Nat.le_max_right _ _)
  · cases isPath with
    | root _ =>
        exact Nat.le_max_left _ _
    | step placed _ =>
        exact absurd (lt_size_of_place? placed) bound

theorem isAtOrAbove_iff
    (wellFormed : store.WellFormed) {ancestor : NodeRef} {id : NodeId} :
    store.isAtOrAbove ancestor (some id) = true ↔
      ∃ node, ancestor = some node ∧ store.Above node id := by
  obtain ⟨path, isPath⟩ := (wellFormed.rooted id).exists_path
  have short := wellFormed.path_length_le isPath
  rw [isAtOrAbove, isPath.isAtOrAboveWithin_eq ancestor (by omega), List.any_eq_true]
  constructor
  · rintro ⟨node, member, same⟩
    exact ⟨node, beq_iff_eq.mp same, isPath.mem_iff_above.mp member⟩
  · rintro ⟨node, same, above⟩
    exact ⟨node, isPath.mem_iff_above.mpr above, beq_iff_eq.mpr same⟩

end WellFormed

/-! ## Stores built from nothing -/

theorem wellFormed_empty : empty.WellFormed where
  slots_match id node found := by
    rw [node?_empty] at found
    exact absurd found (by simp)
  single id role _ := by
    simp [childrenIn]
  listed id role child member := by
    simp [childrenIn] at member
  placed child place placed := by
    simp [place?] at placed
  paired reference := parent_eq_none_iff empty reference
  rooted id := .root (by simp [place?])

end Store

end TypedJava
