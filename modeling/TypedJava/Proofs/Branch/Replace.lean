import TypedJava.Proofs.Branch.Hosted
import TypedJava.Proofs.Edit.Run

/-! # Replacing branches

Detaching a branch, and putting in its place the branch that a factory makes of it. Everything else
in the store stays as it is. -/

namespace TypedJava

namespace Node

theorem updateSlot_updateSlot
    (node : Node) (role : Role) (first second : List NodeId → List NodeId) :
    (node.updateSlot role first).updateSlot role second =
      node.updateSlot role fun children => second (first children) := by
  simp only [updateSlot, List.map_map]
  congr 1
  apply List.map_congr_left
  intro slot _
  by_cases same : slot.role = role <;> simp [same]

/-- Where a slot is changed child by child, so is the listing. -/
theorem listing_updateSlot
    (node : Node) (role : Role) {change : List NodeId → List NodeId} {rename : NodeId → NodeId}
    (childwise : ∀ slot ∈ node.slots, slot.role = role →
      change slot.children = slot.children.map rename) :
    (node.updateSlot role change).listing = node.listing.map fun entry =>
      if entry.1 = role then (entry.1, rename entry.2) else entry := by
  simp only [listing, updateSlot, List.flatMap_map, List.map_flatMap]
  apply List.flatMap_congr
  intro slot member
  by_cases same : slot.role = role
  · simp [same, childwise slot member same, Function.comp_def]
  · simp [same, Function.comp_def]

end Node

namespace Store

variable {store : Store}

/-- Cutting out a child and putting another in at its position exchanges the two. -/
theorem insertAt_eraseIdx
    {children : List NodeId} (nodup : children.Nodup) {child : NodeId} {position : Nat}
    (found : children.idxOf? child = some position) (other : NodeId) :
    insertAt position other (children.eraseIdx position) =
      children.map fun each => if each = child then other else each := by
  induction children generalizing position with
  | nil =>
      simp at found
  | cons first rest inductionHypothesis =>
      rw [List.nodup_cons] at nodup
      rw [List.idxOf?_cons] at found
      by_cases same : first = child
      · subst same
        simp only [BEq.rfl, if_true, Option.some.injEq] at found
        subst found
        have unchanged : rest.map (fun each => if each = first then other else each) = rest := by
          refine (List.map_congr_left fun each member => ?_).trans (List.map_id' rest)
          have different : each ≠ first := fun same => nodup.1 (same ▸ member)
          exact if_neg different
        simp [insertAt, unchanged]
      · rw [if_neg (by simpa using same), Option.map_eq_some_iff] at found
        obtain ⟨position, foundRest, rfl⟩ := found
        have later := inductionHypothesis nodup.2 foundRest
        simp only [insertAt] at later ⊢
        simp [same, later]

theorem node?_detach_parent
    {location : Location} {child : NodeId} {parent : Node}
    (found : store.node? (some location.place.parent) = some parent)
    (different : location.place.parent ≠ child) :
    (store.detach location child).node? (some location.place.parent) =
      some (parent.updateSlot location.place.role (·.eraseIdx location.position)) := by
  rw [detach, node?_update, if_neg different, node?_update, if_pos rfl, found, Option.map_some]

theorem node?_attach_parent
    {place : Place} {child : NodeId} {parent : Node}
    (found : store.node? (some place.parent) = some parent) (different : place.parent ≠ child)
    (position : Nat) :
    (store.attach place position child).node? (some place.parent) =
      some (parent.updateSlot place.role (insertAt position child)) := by
  rw [attach, node?_update, if_neg different, node?_update, if_pos rfl, found, Option.map_some]

private theorem content?_update_place (changed : NodeId) (place : Option Place) (id : NodeId) :
    (store.update changed ({ · with place := place })).content? id = store.content? id := by
  rw [content?, node?_update]
  by_cases same : id = changed
  · rw [if_pos same, Option.map_map]
    rfl
  · rw [if_neg same, content?]

theorem content?_detach_of_ne
    {location : Location} {child id : NodeId} (notParent : id ≠ location.place.parent) :
    (store.detach location child).content? id = store.content? id := by
  rw [detach, content?_update_place, content?, node?_update, if_neg notParent, content?]

theorem content?_attach_of_ne
    {place : Place} {child id : NodeId} (notParent : id ≠ place.parent) (position : Nat) :
    (store.attach place position child).content? id = store.content? id := by
  rw [attach, content?_update_place, content?, node?_update, if_neg notParent, content?]

theorem keeps_detach (location : Location) (child : NodeId) :
    store.Keeps (store.detach location child) fun id =>
      id = location.place.parent ∨ id = child := by
  refine ⟨Nat.le_of_eq (size_detach store location child).symm, fun id _ untouched => ?_⟩
  exact node?_detach_of_ne (fun same => untouched (Or.inl same))
    fun same => untouched (Or.inr same)

theorem keeps_attach (place : Place) (position : Nat) (child : NodeId) :
    store.Keeps (store.attach place position child) fun id =>
      id = place.parent ∨ id = child := by
  refine ⟨Nat.le_of_eq (size_attach store place position child).symm, fun id _ untouched => ?_⟩
  exact node?_attach_of_ne (fun same => untouched (Or.inl same))
    (fun same => untouched (Or.inr same)) position

end Store

namespace Branch

variable {store changed : Store} {frames : List Frame} {frame : Frame} {branch : Branch}

/-- The node with the gap, which a change of the branch in the gap may touch. -/
def gapOf (frames : List Frame) (id : NodeId) : Prop :=
  ∃ frame ∈ frames.head?, id = frame.parent

@[simp]
theorem not_gapOf_nil (id : NodeId) : ¬ gapOf [] id := by
  rintro ⟨frame, member, _⟩
  exact absurd member (by simp)

@[simp]
theorem gapOf_cons {id : NodeId} : gapOf (frame :: frames) id ↔ id = frame.parent := by
  constructor
  · rintro ⟨found, member, same⟩
    cases member
    exact same
  · exact fun same => ⟨frame, rfl, same⟩

/-- From a store comes another one that hosts a branch. The branch is made of new nodes and nodes of
a source, and apart from the source and the node with the gap all nodes are as they were. -/
structure Becomes (store : Store) (source : List NodeId) (frames : List Frame) (branch : Branch)
    (changed : Store) : Prop where
  wellFormed : changed.WellFormed
  hosted : Hosted changed frames branch
  keeps : store.Keeps changed fun id => id ∈ source ∨ gapOf frames id
  fresh : ∀ id ∈ branch.ids, id ∈ source ∨ store.size ≤ id
  label?_eq : ∀ id, id < store.size → changed.label? (some id) = store.label? (some id)

namespace Becomes

variable {source : List NodeId}

theorem refl (wellFormed : store.WellFormed) (hosted : Hosted store frames branch) :
    Becomes store branch.ids frames branch store :=
  ⟨wellFormed, hosted, .refl _ _, fun _ member => Or.inl member, fun _ _ => rfl⟩

theorem mono
    (becomes : Becomes store source frames branch changed) {larger : List NodeId}
    (subset : ∀ id ∈ source, id ∈ larger) :
    Becomes store larger frames branch changed :=
  ⟨becomes.wellFormed, becomes.hosted,
    becomes.keeps.weaken fun id _ touched => touched.imp_left (subset id),
    fun id member => (becomes.fresh id member).imp_left (subset id), becomes.label?_eq⟩

/-- A second change may use what the first one was allowed to use, and new nodes. -/
theorem trans_of_source
    (first : Becomes store source frames branch changed) {used : List NodeId} {other : Branch}
    {further : Store} (second : Becomes changed used frames other further)
    (known : ∀ id ∈ used, id ∈ source ∨ store.size ≤ id) :
    Becomes store source frames other further := by
  refine ⟨second.wellFormed, second.hosted, first.keeps.trans second.keeps ?_, ?_, ?_⟩
  · rintro id bound (member | gap)
    · exact Or.inl ((known id member).resolve_right (Nat.not_le_of_lt bound))
    · exact Or.inr gap
  · intro id member
    rcases second.fresh id member with inUsed | new
    · exact known id inUsed
    · exact Or.inr (Nat.le_trans first.keeps.size_le new)
  · intro id bound
    rw [second.label?_eq id (Nat.lt_of_lt_of_le bound first.keeps.size_le),
      first.label?_eq id bound]

theorem trans
    (first : Becomes store source frames branch changed) {other : Branch} {further : Store}
    (second : Becomes changed branch.ids frames other further) :
    Becomes store source frames other further :=
  first.trans_of_source second first.fresh

/-- What a child becomes makes what its parent becomes. -/
theorem outer
    (becomes : Becomes store branch.ids (frame :: frames) changedBranch changed) :
    Becomes store (frame.fill branch).ids frames (frame.fill changedBranch) changed := by
  refine ⟨becomes.wellFormed, becomes.hosted.outer, becomes.keeps.weaken ?_, ?_,
    becomes.label?_eq⟩
  · rintro id _ (member | gap)
    · exact Or.inl (mem_ids_of_mem_children (frame.mem_children_fill branch) member)
    · rw [gapOf_cons] at gap
      exact Or.inl (gap ▸ id_mem_ids (frame.fill branch))
  · intro id member
    rw [Frame.ids_fill] at member ⊢
    simp only [List.mem_cons, List.mem_append] at member ⊢
    rcases member with top | (before | inBranch) | after
    · exact Or.inl (Or.inl top)
    · exact Or.inl (Or.inr (Or.inl (Or.inl before)))
    · exact (becomes.fresh id inBranch).imp_left fun inSource =>
        Or.inr (Or.inl (Or.inr inSource))
    · exact Or.inl (Or.inr (Or.inr after))

/-- What comes into a gap stands between the children that stood beside the branch. -/
theorem childrenIn_gap
    {other : Branch} (becomes : Becomes store source (frame :: frames) other changed)
    (hosted : Hosted store (frame :: frames) branch) (wellFormed : store.WellFormed)
    {before after : List NodeId}
    (listed : store.childrenIn (some frame.parent) frame.role = before ++ branch.id :: after) :
    changed.childrenIn (some frame.parent) frame.role = before ++ other.id :: after := by
  have nodup := wellFormed.childrenIn_nodup frame.parent frame.role
  have gap := hosted.childrenIn_gap wellFormed
  rw [listed] at nodup gap
  obtain ⟨apart, _⟩ := List.nodup_cons.mp (List.nodup_middle.mp nodup)
  rw [List.mem_append, not_or] at apart
  have same := (List.append_cons_inj_of_notMem apart.1 apart.2).mp gap
  rw [becomes.hosted.childrenIn_gap becomes.wellFormed, same.1, same.2.2]

end Becomes

/-! ## Detaching a branch -/

theorem Hosted.exists_location?
    (hosted : Hosted store (frame :: frames) branch) (wellFormed : store.WellFormed) :
    ∃ position, store.location? (some branch.id) = some ⟨frame.place, position⟩ :=
  wellFormed.exists_location? (hosted.place?_eq wellFormed)

theorem Hosted.parent_ne (hosted : Hosted store (frame :: frames) branch)
    (wellFormed : store.WellFormed) :
    frame.parent ≠ branch.id := by
  intro same
  exact hosted.parent_not_mem_ids wellFormed (same ▸ id_mem_ids branch)

theorem Hosted.becomes_detach
    (hosted : Hosted store (frame :: frames) branch) (wellFormed : store.WellFormed)
    {position : Nat} (located : store.location? (some branch.id) = some ⟨frame.place, position⟩) :
    Becomes store (frame.parent :: branch.ids) [] branch
      (store.detach ⟨frame.place, position⟩ branch.id) := by
  have notParent := hosted.parent_not_mem_ids wellFormed
  refine ⟨wellFormed.detach located, ⟨?_, ?_⟩, ?_, fun id member => ?_, fun id _ => ?_⟩
  · refine hosted.held.of_content_eq fun id member => ?_
    refine Store.content?_detach_of_ne fun same => notParent ?_
    have isParent : id = frame.parent := same
    exact isParent ▸ member
  · rw [Store.place?_detach, within, if_pos rfl]
  · refine (Store.keeps_detach _ _).weaken fun id _ touched => Or.inl ?_
    rcases touched with rfl | rfl
    · exact List.mem_cons_self
    · exact List.mem_cons_of_mem _ (id_mem_ids branch)
  · exact Or.inl (List.mem_cons_of_mem _ member)
  · exact Store.label?_detach store _ branch.id (some id)

theorem Hosted.run_detach
    (hosted : Hosted store (frame :: frames) branch) (wellFormed : store.WellFormed) :
    ∃ changed, (Edit.detach (some branch.id)).run store = (.ok (), changed) ∧
      Becomes store (frame.parent :: branch.ids) [] branch changed := by
  obtain ⟨position, located⟩ := hosted.exists_location? wellFormed
  refine ⟨_, ?_, hosted.becomes_detach wellFormed located⟩
  rw [Edit.run_detach, located]

/-! ## Putting a branch into the gap -/

section Refill

variable {other : Branch} {position : Nat}

/-- A branch made from what was in the gap holds no old node from elsewhere. -/
private theorem old_of_mem_made
    (made : Becomes (store.detach ⟨frame.place, position⟩ branch.id) branch.ids [] other changed)
    {id : NodeId} (member : id ∈ other.ids) (old : id < store.size) :
    id ∈ branch.ids := by
  refine (made.fresh id member).resolve_right fun new => ?_
  rw [Store.size_detach] at new
  exact absurd old (Nat.not_lt_of_le new)

/-- While the branch is worked on, the node with the gap only lacks the branch. -/
private theorem node?_parent_made
    (hosted : Hosted store (frame :: frames) branch) (wellFormed : store.WellFormed)
    (made : Becomes (store.detach ⟨frame.place, position⟩ branch.id) branch.ids [] other changed)
    {parent : Node} (found : store.node? (some frame.parent) = some parent) :
    changed.node? (some frame.parent) =
      some (parent.updateSlot frame.role (·.eraseIdx position)) := by
  have detached : (store.detach ⟨frame.place, position⟩ branch.id).node? (some frame.parent) =
      some (parent.updateSlot frame.role (·.eraseIdx position)) :=
    Store.node?_detach_parent found (hosted.parent_ne wellFormed)
  refine made.keeps.node?_eq detached ?_
  rintro (member | gap)
  · exact hosted.parent_not_mem_ids wellFormed member
  · exact not_gapOf_nil _ gap

private theorem attachable_made
    (hosted : Hosted store (frame :: frames) branch) (wellFormed : store.WellFormed)
    (located : store.location? (some branch.id) = some ⟨frame.place, position⟩)
    (made : Becomes (store.detach ⟨frame.place, position⟩ branch.id) branch.ids [] other
      changed) :
    changed.Attachable frame.place other.id := by
  obtain ⟨placed, _⟩ := Store.location?_eq_some located
  obtain ⟨parent, found, present⟩ := wellFormed.exists_parent placed
  have foundLater := node?_parent_made hosted wellFormed made found
  refine ⟨made.hosted.held.id_lt_size, made.hosted.place?_eq_none, ⟨_, foundLater, ?_⟩, ?_, ?_⟩
  · rw [Node.map_role_updateSlot]
    exact present
  · intro above
    have inOther := (made.hosted.held.mem_ids_iff made.wellFormed).mpr above
    exact hosted.parent_not_mem_ids wellFormed
      (old_of_mem_made made inOther hosted.parent_lt_size)
  · intro single
    have short := wellFormed.single frame.parent frame.role single
    have listed : branch.id ∈ store.childrenIn (some frame.parent) frame.role :=
      wellFormed.mem_childrenIn placed
    have bound : frame.parent < (store.detach ⟨frame.place, position⟩ branch.id).size := by
      rw [Store.size_detach]
      exact hosted.parent_lt_size
    have untouched : ¬ (frame.parent ∈ branch.ids ∨ gapOf [] frame.parent) := by
      simpa using hosted.parent_not_mem_ids wellFormed
    show changed.childrenIn (some frame.parent) frame.role = []
    rw [made.keeps.childrenIn_eq bound untouched, wellFormed.childrenIn_detach located]
    apply List.eq_nil_of_length_eq_zero
    rw [List.length_erase_of_mem listed]
    omega

/-- Around the gap, everything but the node with the gap holds what it held. -/
private theorem content?_refill
    (hosted : Hosted store (frame :: frames) branch) (wellFormed : store.WellFormed)
    (made : Becomes (store.detach ⟨frame.place, position⟩ branch.id) branch.ids [] other changed)
    {id : NodeId} (around : id ∈ idsAround (frame :: frames)) (notParent : id ≠ frame.parent) :
    (changed.attach frame.place position other.id).content? id = store.content? id := by
  have bound : id < (store.detach ⟨frame.place, position⟩ branch.id).size := by
    rw [Store.size_detach]
    exact hosted.lt_size_of_mem_idsAround around
  have untouched : ¬ (id ∈ branch.ids ∨ gapOf [] id) := by
    simpa using hosted.not_mem_ids_of_mem_idsAround wellFormed around
  rw [Store.content?_attach_of_ne notParent, made.keeps.content?_eq bound untouched,
    Store.content?_detach_of_ne notParent]

private theorem rename_entries
    {siblings : List (Role × Branch)} (role : Role) {old : NodeId} (new : NodeId)
    (different : ∀ entry ∈ siblings, entry.2.id ≠ old) :
    ((entries siblings).map fun entry =>
      if entry.1 = role then (entry.1, if entry.2 = old then new else entry.2) else entry) =
      entries siblings := by
  rw [entries, List.map_map]
  apply List.map_congr_left
  intro entry member
  simp [different entry member]

theorem Hosted.sibling_ne
    (hosted : Hosted store (frame :: frames) branch) (wellFormed : store.WellFormed)
    {entry : Role × Branch} (member : entry ∈ frame.before ∨ entry ∈ frame.after) :
    entry.2.id ≠ branch.id := by
  intro same
  have inSiblings : entry.2.id ∈ idsAround (frame :: frames) := by
    rw [mem_idsAround_cons, mem_idsOfAll, mem_idsOfAll]
    rcases member with before | after
    · exact Or.inr (Or.inl ⟨entry, before, id_mem_ids entry.2⟩)
    · exact Or.inr (Or.inr (Or.inl ⟨entry, after, id_mem_ids entry.2⟩))
  exact hosted.not_mem_ids_of_mem_idsAround wellFormed inSiblings (same ▸ id_mem_ids branch)

/-- The node with the gap lists the new branch where it listed the old one. -/
private theorem content?_parent_refill
    (hosted : Hosted store (frame :: frames) branch) (wellFormed : store.WellFormed)
    (located : store.location? (some branch.id) = some ⟨frame.place, position⟩)
    (made : Becomes (store.detach ⟨frame.place, position⟩ branch.id) branch.ids [] other changed) :
    (changed.attach frame.place position other.id).content? frame.parent =
      some (frame.payload, frame.annotations,
        entries (frame.before ++ (frame.role, other) :: frame.after)) := by
  obtain ⟨_, positioned⟩ := Store.location?_eq_some located
  obtain ⟨parent, found, samePayload, sameAnnotations, listing⟩ := hosted.outer.held.exists_node
  rw [Frame.id_fill] at found
  have notOther : frame.parent ≠ other.id := fun same =>
    hosted.parent_not_mem_ids wellFormed
      (old_of_mem_made made (same ▸ id_mem_ids other) hosted.parent_lt_size)
  have attached : (changed.attach frame.place position other.id).node? (some frame.parent) =
      some ((parent.updateSlot frame.role (·.eraseIdx position)).updateSlot frame.role
        (Store.insertAt position other.id)) :=
    Store.node?_attach_parent (node?_parent_made hosted wellFormed made found) notOther position
  have childwise : ∀ slot ∈ parent.slots, slot.role = frame.role →
      Store.insertAt position other.id (slot.children.eraseIdx position) =
        slot.children.map fun each => if each = branch.id then other.id else each := by
    intro slot member sameRole
    have slotChildren : slot.children = store.childrenIn (some frame.parent) frame.role := by
      rw [Store.childrenIn_of_node? found, ← sameRole]
      exact (Slot.childrenIn_of_mem (wellFormed.roles_nodup found) member).symm
    rw [slotChildren]
    exact Store.insertAt_eraseIdx (wellFormed.childrenIn_nodup _ _) positioned other.id
  have beforeKept := rename_entries frame.role other.id fun entry member =>
    hosted.sibling_ne wellFormed (Or.inl member)
  have afterKept := rename_entries frame.role other.id fun entry member =>
    hosted.sibling_ne wellFormed (Or.inr member)
  rw [Store.content?, attached, Option.map_some, Node.updateSlot_updateSlot,
    Node.listing_updateSlot parent frame.role childwise, listing]
  simp only [Frame.fill, Branch.payload, Branch.annotations, children] at samePayload sameAnnotations ⊢
  rw [entries_append, entries_cons, entries_append, entries_cons, List.map_append, List.map_cons,
    beforeKept, afterKept, Node.payload_updateSlot, Node.annotations_updateSlot, samePayload,
    sameAnnotations]
  simp

/-- A branch made from what was in the gap may be put into it. -/
theorem Hosted.becomes_attach
    (hosted : Hosted store (frame :: frames) branch) (wellFormed : store.WellFormed)
    (located : store.location? (some branch.id) = some ⟨frame.place, position⟩)
    (made : Becomes (store.detach ⟨frame.place, position⟩ branch.id) branch.ids [] other
      changed) :
    Becomes store branch.ids (frame :: frames) other
      (changed.attach frame.place position other.id) := by
  have total := (hosted.becomes_detach wellFormed located).trans made
  have attachable := attachable_made hosted wellFormed located made
  have siblings := hosted.parent_not_mem_siblings wellFormed
  have parentNotInOther : frame.parent ∉ other.ids := fun member =>
    hosted.parent_not_mem_ids wellFormed (old_of_mem_made made member hosted.parent_lt_size)
  have sameAround : ∀ id ∈ idsAround (frame :: frames), id ≠ frame.parent →
      (changed.attach frame.place position other.id).content? id = store.content? id :=
    fun id member notParent => content?_refill hosted wellFormed made member notParent
  have filled : (frame.fill other).HeldIn (changed.attach frame.place position other.id) := by
    refine HeldIn.fill ?_ (content?_parent_refill hosted wellFormed located made) ?_ ?_
    · refine made.hosted.held.of_content_eq fun id member => ?_
      refine Store.content?_attach_of_ne (fun same => parentNotInOther ?_) position
      have isParent : id = frame.parent := same
      exact isParent ▸ member
    · intro entry member
      refine (hosted.outer.held.of_mem_children (mem_before_children member branch)).of_content_eq ?_
      intro id found
      have inSiblings := mem_idsOfAll.mpr ⟨entry, member, found⟩
      exact sameAround id (mem_idsAround_cons.mpr (Or.inr (Or.inl inSiblings)))
        fun same => siblings.1 (same ▸ inSiblings)
    · intro entry member
      refine (hosted.outer.held.of_mem_children (mem_after_children member branch)).of_content_eq ?_
      intro id found
      have inSiblings := mem_idsOfAll.mpr ⟨entry, member, found⟩
      exact sameAround id (mem_idsAround_cons.mpr (Or.inr (Or.inr (Or.inl inSiblings))))
        fun same => siblings.2 (same ▸ inSiblings)
  refine ⟨made.wellFormed.attach attachable position, ⟨?_, ?_⟩, ?_, fun id member => ?_,
    fun id bound => ?_⟩
  · refine hosted.outer.whole.exchange filled rfl fun id member => ?_
    refine sameAround id (mem_idsAround_cons.mpr (Or.inr (Or.inr (Or.inr member)))) ?_
    rintro rfl
    exact hosted.parent_not_mem_outer wellFormed member
  · have around := id_within_mem_idsAround frame frames branch
    have notInBranch := hosted.not_mem_ids_of_mem_idsAround wellFormed around
    have bound := hosted.lt_size_of_mem_idsAround around
    have notOther : (within (frame :: frames) branch).id ≠ other.id := fun same =>
      notInBranch (old_of_mem_made made (same ▸ id_mem_ids other) bound)
    have notBranch : (within (frame :: frames) branch).id ≠ branch.id := fun same =>
      notInBranch (same ▸ id_mem_ids branch)
    rw [id_within_cons frame frames other branch, Store.place?_attach attachable.valid,
      if_neg notOther, made.keeps.place?_eq (by rwa [Store.size_detach]) (by simpa using notInBranch),
      Store.place?_detach, if_neg notBranch]
    exact hosted.unplaced
  · have weakened : store.Keeps changed fun id => id ∈ branch.ids ∨ gapOf (frame :: frames) id := by
      refine total.keeps.weaken fun id _ touched => ?_
      rw [gapOf_cons]
      rcases touched with member | gap
      · exact (List.mem_cons.mp member).symm
      · exact absurd gap (not_gapOf_nil id)
    refine weakened.trans (Store.keeps_attach _ _ _) fun id bound touched => ?_
    rw [gapOf_cons]
    rcases touched with isParent | isOther
    · exact Or.inr isParent
    · exact Or.inl (old_of_mem_made made (isOther ▸ id_mem_ids other) bound)
  · exact (made.fresh id member).imp_right fun new => by rwa [Store.size_detach] at new
  · rw [Store.label?_attach]
    exact total.label?_eq id bound

end Refill

/-- Replacing a branch by what a factory makes of it. -/
theorem Hosted.run_replaceBy
    (hosted : Hosted store (frame :: frames) branch) (wellFormed : store.WellFormed)
    {factory : NodeRef → Edit NodeRef} {property : Branch → Prop}
    (works : ∀ detached, detached.WellFormed → Hosted detached [] branch →
      detached.size = store.size → ∃ other changed,
        (factory (some branch.id)).run detached = (.ok (some other.id), changed) ∧
          Becomes detached branch.ids [] other changed ∧ property other) :
    ∃ other changed,
      (Edit.replaceBy (some branch.id) factory).run store = (.ok (some other.id), changed) ∧
        Becomes store branch.ids (frame :: frames) other changed ∧ property other := by
  obtain ⟨position, located⟩ := hosted.exists_location? wellFormed
  have detached := hosted.becomes_detach wellFormed located
  obtain ⟨other, changed, run, made, holds⟩ :=
    works _ detached.wellFormed detached.hosted (Store.size_detach _ _ _)
  have allowed := made.wellFormed.attachError?_eq_none
    (attachable_made hosted wellFormed located made)
  refine ⟨other, _, ?_, hosted.becomes_attach wellFormed located made, holds⟩
  have runDetach : (Edit.detach (some branch.id)).run store =
      (.ok (), store.detach ⟨frame.place, position⟩ branch.id) := by
    rw [Edit.run_detach, located]
  exact Edit.run_replaceBy_ok located runDetach run (Edit.run_attachAt_ok allowed position)

end Branch

end TypedJava
