import TypedJava.Proofs.Branch.Basic

/-! # Branches of a well-formed store

The branch at a node consists of the nodes below it, no node occurs in it twice, and the bounded
walks of the store see all of it. -/

namespace TypedJava

namespace Store

variable {store : Store}

/-- Of two nodes above a third one, one is above the other. -/
theorem Above.comparable
    {first second id : NodeId} (firstAbove : store.Above first id)
    (secondAbove : store.Above second id) :
    store.Above first second ∨ store.Above second first := by
  induction firstAbove with
  | refl =>
      exact Or.inr secondAbove
  | @step id place placed above inductionHypothesis =>
      by_cases same : second = id
      · exact Or.inl (same ▸ .step placed above)
      · exact inductionHypothesis (secondAbove.above_parent placed same)

namespace WellFormed

theorem mem_listing_iff
    (wellFormed : store.WellFormed) {id : NodeId} {node : Node}
    (found : store.node? (some id) = some node) {role : Role} {child : NodeId} :
    (role, child) ∈ node.listing ↔ store.place? (some child) = some ⟨id, role⟩ := by
  rw [Node.mem_listing_iff (wellFormed.roles_nodup found), ← childrenIn_of_node? found,
    wellFormed.mem_childrenIn_iff]

/-- The slots of a node hold what the store lists in their roles. -/
theorem slots_eq_map
    (wellFormed : store.WellFormed) {id : NodeId} {node : Node}
    (found : store.node? (some id) = some node) :
    node.slots = node.kind.roles.map fun role => ⟨role, store.childrenIn (some id) role⟩ := by
  rw [← wellFormed.slots_match id node found, List.map_map]
  refine (List.map_id _).symm.trans (List.map_congr_left fun slot member => ?_)
  rw [Function.comp_apply, childrenIn_of_node? found, Node.childrenIn,
    Slot.childrenIn_of_mem (wellFormed.roles_nodup found) member]
  rfl

/-- The listing of a node goes through its roles in their order. -/
theorem listing_eq_flatMap
    (wellFormed : store.WellFormed) {id : NodeId} {node : Node}
    (found : store.node? (some id) = some node) :
    node.listing = node.kind.roles.flatMap fun role =>
      (store.childrenIn (some id) role).map fun child => (role, child) := by
  rw [Node.listing, wellFormed.slots_eq_map found, List.flatMap_map]

/-- No node is listed twice. -/
theorem listing_nodup
    (wellFormed : store.WellFormed) {id : NodeId} {node : Node}
    (found : store.node? (some id) = some node) :
    (node.listing.map (·.2)).Nodup := by
  rw [wellFormed.listing_eq_flatMap found, List.map_flatMap, List.nodup_flatMap]
  constructor
  · intro role _
    simpa [Function.comp_def] using wellFormed.childrenIn_nodup id role
  · apply List.Pairwise.imp _ node.kind.roles_nodup
    intro first second different child inFirst inSecond
    simp only [List.map_map, Function.comp_def, List.map_id'] at inFirst inSecond
    have firstPlaced := wellFormed.listed id first child inFirst
    have secondPlaced := wellFormed.listed id second child inSecond
    rw [firstPlaced] at secondPlaced
    simp only [Option.some.injEq, Place.mk.injEq, true_and] at secondPlaced
    exact different secondPlaced

end WellFormed

end Store

namespace Branch

namespace HeldIn

variable {store : Store} {branch : Branch}

/-- The place of a node in a branch below the top is in the branch. -/
theorem place?_of_mem_children
    (held : branch.HeldIn store) (wellFormed : store.WellFormed) {entry : Role × Branch}
    (member : entry ∈ branch.children) :
    store.place? (some entry.2.id) = some ⟨branch.id, entry.1⟩ := by
  obtain ⟨node, found, _, _, listing⟩ := held.exists_node
  rw [← wellFormed.mem_listing_iff found, listing]
  exact List.mem_map_of_mem member

theorem exists_child_of_place?
    (held : branch.HeldIn store) (wellFormed : store.WellFormed) {id : NodeId} {role : Role}
    (placed : store.place? (some id) = some ⟨branch.id, role⟩) :
    ∃ entry ∈ branch.children, entry.1 = role ∧ entry.2.id = id := by
  obtain ⟨node, found, _, _, listing⟩ := held.exists_node
  rw [← wellFormed.mem_listing_iff found, listing] at placed
  obtain ⟨entry, member, same⟩ := List.mem_map.mp placed
  simp only [Prod.mk.injEq] at same
  exact ⟨entry, member, same.1, same.2⟩

theorem payload?_eq (held : branch.HeldIn store) :
    store.payload? (some branch.id) = some branch.payload := by
  obtain ⟨node, found, samePayload, _⟩ := held.exists_node
  rw [Store.payload?, found, Option.map_some, samePayload]

theorem kind_eq (held : branch.HeldIn store) :
    store.kind (some branch.id) = branch.payload.kind := by
  obtain ⟨node, found, samePayload, _⟩ := held.exists_node
  rw [Store.kind, found, ← samePayload]
  rfl

/-- The roles of the children are roles of the kind at the top. -/
theorem role_mem
    (held : branch.HeldIn store) (wellFormed : store.WellFormed) {entry : Role × Branch}
    (member : entry ∈ branch.children) :
    entry.1 ∈ branch.payload.kind.roles := by
  have placed := held.place?_of_mem_children wellFormed member
  obtain ⟨node, found, present⟩ := wellFormed.exists_parent placed
  rw [wellFormed.slots_match _ _ found, Node.kind, (held.of_node? found).1] at present
  exact present

/-- The branch at a node of a branch is a part of it. -/
theorem exists_part
    (held : branch.HeldIn store) {id : NodeId} (member : id ∈ branch.ids) :
    ∃ part : Branch, part.HeldIn store ∧ part.id = id ∧ ∀ deeper ∈ part.ids, deeper ∈ branch.ids := by
  induction branch using Branch.induction with
  | node top payload annotations children inductionHypothesis =>
      rw [ids_eq_cons] at member
      rcases List.mem_cons.mp member with rfl | deeper
      · exact ⟨_, held, rfl, fun _ member => member⟩
      · obtain ⟨entry, isChild, found⟩ := mem_idsOfAll.mp deeper
        obtain ⟨part, partHeld, partTop, partIds⟩ :=
          inductionHypothesis entry isChild (held.of_mem_children isChild) found
        exact ⟨part, partHeld, partTop, fun id member =>
          mem_ids_of_mem_children isChild (partIds id member)⟩

/-- A branch consists of the nodes below its top. -/
theorem mem_ids_iff
    (held : branch.HeldIn store) (wellFormed : store.WellFormed) {id : NodeId} :
    id ∈ branch.ids ↔ store.Above branch.id id := by
  constructor
  · intro member
    induction branch using Branch.induction with
    | node top payload annotations children inductionHypothesis =>
        rw [ids_eq_cons] at member
        rcases List.mem_cons.mp member with rfl | deeper
        · exact .refl
        · obtain ⟨entry, isChild, found⟩ := mem_idsOfAll.mp deeper
          have childAbove := inductionHypothesis entry isChild (held.of_mem_children isChild) found
          exact (Store.Above.parent (held.place?_of_mem_children wellFormed isChild)).trans
            childAbove
  · intro above
    induction above with
    | refl =>
        exact id_mem_ids branch
    | @step id place placed _ inductionHypothesis =>
        obtain ⟨part, partHeld, partTop, partIds⟩ := held.exists_part inductionHypothesis
        obtain ⟨parent, role⟩ := place
        cases partTop
        obtain ⟨entry, isChild, _, rfl⟩ := partHeld.exists_child_of_place? wellFormed placed
        exact partIds _ (mem_ids_of_mem_children isChild (id_mem_ids _))

theorem children_nodup
    (held : branch.HeldIn store) (wellFormed : store.WellFormed) :
    (branch.children.map fun entry => entry.2.id).Nodup := by
  obtain ⟨node, found, _, _, listing⟩ := held.exists_node
  have nodup := wellFormed.listing_nodup found
  rw [listing, entries, List.map_map] at nodup
  exact nodup

theorem ids_nodup (held : branch.HeldIn store) (wellFormed : store.WellFormed) :
    branch.ids.Nodup := by
  induction branch using Branch.induction with
  | node top payload annotations children inductionHypothesis =>
      rw [ids_eq_cons, List.nodup_cons]
      refine ⟨fun member => ?_, ?_⟩
      · obtain ⟨entry, isChild, found⟩ := mem_idsOfAll.mp member
        have above := ((held.of_mem_children isChild).mem_ids_iff wellFormed).mp found
        exact wellFormed.not_above_parent (held.place?_of_mem_children wellFormed isChild) above
      · rw [idsOfAll_eq_flatMap, List.nodup_flatMap]
        refine ⟨fun entry isChild =>
          inductionHypothesis entry isChild (held.of_mem_children isChild), ?_⟩
        have differentTops : children.Pairwise fun first second => first.2.id ≠ second.2.id :=
          List.pairwise_map.mp (held.children_nodup wellFormed)
        refine differentTops.imp_of_mem ?_
        intro first second isFirst isSecond different id inFirst inSecond
        have firstPlaced := held.place?_of_mem_children wellFormed isFirst
        have secondPlaced := held.place?_of_mem_children wellFormed isSecond
        have firstAbove := ((held.of_mem_children isFirst).mem_ids_iff wellFormed).mp inFirst
        have secondAbove := ((held.of_mem_children isSecond).mem_ids_iff wellFormed).mp inSecond
        rcases firstAbove.comparable secondAbove with above | above
        · have aboveTop : store.Above first.2.id top :=
            above.above_parent secondPlaced different
          exact wellFormed.not_above_parent firstPlaced aboveTop
        · have aboveTop : store.Above second.2.id top :=
            above.above_parent firstPlaced (Ne.symm different)
          exact wellFormed.not_above_parent secondPlaced aboveTop

end HeldIn

/-! ## Every node carries a branch -/

private theorem exists_children
    {store : Store} (listing : List (Role × NodeId))
    (each : ∀ entry ∈ listing, ∃ branch : Branch, branch.HeldIn store ∧ branch.id = entry.2) :
    ∃ children, entries children = listing ∧ ∀ entry ∈ children, entry.2.HeldIn store := by
  induction listing with
  | nil =>
      exact ⟨[], rfl, fun _ member => absurd member List.not_mem_nil⟩
  | cons entry rest inductionHypothesis =>
      obtain ⟨branch, held, sameTop⟩ := each entry List.mem_cons_self
      obtain ⟨children, same, allHeld⟩ :=
        inductionHypothesis fun other member => each other (List.mem_cons_of_mem _ member)
      refine ⟨(entry.1, branch) :: children, ?_, ?_⟩
      · rw [entries, List.map_cons, ← entries, same, sameTop]
      · intro found member
        rcases List.mem_cons.mp member with rfl | later
        · exact held
        · exact allHeld found later

private theorem exists_branch_within
    {store : Store} (wellFormed : store.WellFormed) (fuel : Nat) {id : NodeId} {path : List NodeId}
    (bound : id < store.size) (isPath : store.Path id path)
    (enough : store.size < fuel + path.length) :
    ∃ branch : Branch, branch.HeldIn store ∧ branch.id = id := by
  induction fuel generalizing id path with
  | zero =>
      have short := wellFormed.path_length_le_size isPath bound
      omega
  | succ fuel inductionHypothesis =>
      obtain ⟨node, found⟩ := Store.exists_node?_of_lt_size bound
      obtain ⟨children, same, allHeld⟩ := exists_children node.listing (by
        rintro ⟨role, child⟩ member
        have placed := (wellFormed.mem_listing_iff found).mp member
        refine inductionHypothesis (Store.lt_size_of_place? placed) (.step placed isPath) ?_
        rw [List.length_cons]
        omega)
      refine ⟨.node id node.payload node.annotations children, .node ?_ allHeld, rfl⟩
      rw [Store.content?, found, same]
      rfl

theorem exists_branch
    {store : Store} (wellFormed : store.WellFormed) {id : NodeId} (bound : id < store.size) :
    ∃ branch : Branch, branch.HeldIn store ∧ branch.id = id := by
  obtain ⟨path, isPath⟩ := (wellFormed.rooted id).exists_path
  refine exists_branch_within wellFormed store.size bound isPath ?_
  have positive := isPath.length_pos
  omega

/-! ## The bounded walks see the whole branch -/

namespace HeldIn

variable {store : Store} {branch : Branch}

/-- The children of the top in a role. -/
theorem childrenIn_eq
    (held : branch.HeldIn store) (wellFormed : store.WellFormed) (role : Role) :
    store.childrenIn (some branch.id) role =
      (branch.children.filter fun entry => entry.1 = role).map fun entry => entry.2.id := by
  obtain ⟨node, found, _, _, listing⟩ := held.exists_node
  rw [Store.childrenIn_of_node? found,
    ← Node.childrenIn_eq_filter_listing (wellFormed.roles_nodup found), listing, entries,
    List.filter_map, List.map_map]
  rfl

private theorem subtreeWithin_eq
    (held : branch.HeldIn store) (wellFormed : store.WellFormed) (fuel : Nat)
    {path : List NodeId} (isPath : store.Path branch.id path)
    (enough : store.size < fuel + path.length) :
    store.subtreeWithin fuel branch.id = branch.ids := by
  induction fuel generalizing branch path with
  | zero =>
      have short := wellFormed.path_length_le_size isPath held.id_lt_size
      omega
  | succ fuel inductionHypothesis =>
      obtain ⟨node, found, _, _, listing⟩ := held.exists_node
      rw [Store.subtreeWithin, found, ids_eq_cons, idsOfAll_eq_flatMap]
      simp only
      rw [← Node.map_snd_listing, listing, entries, List.map_map, List.flatMap_map]
      congr 1
      apply List.flatMap_congr
      intro entry member
      refine inductionHypothesis (held.of_mem_children member)
        (.step (held.place?_of_mem_children wellFormed member) isPath) ?_
      rw [List.length_cons]
      omega

private theorem treeWithin_eq
    (held : branch.HeldIn store) (wellFormed : store.WellFormed) (fuel : Nat)
    {path : List NodeId} (isPath : store.Path branch.id path)
    (enough : store.size < fuel + path.length) :
    store.treeWithin fuel branch.id = some branch.toTree := by
  induction fuel generalizing branch path with
  | zero =>
      have short := wellFormed.path_length_le_size isPath held.id_lt_size
      omega
  | succ fuel inductionHypothesis =>
      obtain ⟨node, found, samePayload, sameAnnotations, _⟩ := held.exists_node
      have lists := held.childrenIn_eq wellFormed
      have sameKind : node.kind = branch.payload.kind := by rw [Node.kind, samePayload]
      obtain ⟨top, payload, annotations, children⟩ := branch
      rw [Store.treeWithin, found, Option.map_some, toTree, samePayload, sameAnnotations,
        wellFormed.slots_eq_map found, sameKind, List.map_map]
      simp only [Branch.id, Branch.payload, Branch.annotations, Branch.children] at lists ⊢
      congr 2
      apply List.map_congr_left
      intro role _
      simp only [Function.comp_apply, treesIn_eq_filter]
      rw [lists, List.filterMap_map, ← List.filterMap_eq_map]
      congr 1
      apply List.filterMap_congr
      intro entry isListed
      have isChild : entry ∈ children := (List.mem_filter.mp isListed).1
      refine inductionHypothesis (held.of_mem_children isChild)
        (.step (held.place?_of_mem_children wellFormed isChild) isPath) ?_
      rw [List.length_cons]
      omega

theorem subtree_eq (held : branch.HeldIn store) (wellFormed : store.WellFormed) :
    store.subtree (some branch.id) = branch.ids := by
  obtain ⟨path, isPath⟩ := (wellFormed.rooted branch.id).exists_path
  have positive := isPath.length_pos
  exact held.subtreeWithin_eq wellFormed store.size isPath (by omega)

theorem tree?_eq (held : branch.HeldIn store) (wellFormed : store.WellFormed) :
    store.tree? (some branch.id) = some branch.toTree := by
  obtain ⟨path, isPath⟩ := (wellFormed.rooted branch.id).exists_path
  have positive := isPath.length_pos
  exact held.treeWithin_eq wellFormed store.size isPath (by omega)

/-- The trees of the children in a role are those of the nodes that the store lists there. -/
theorem map_some_treesIn
    (held : branch.HeldIn store) (wellFormed : store.WellFormed) (role : Role) :
    (treesIn role branch.children).map some =
      (store.childrenIn (some branch.id) role).map fun child => store.tree? (some child) := by
  rw [treesIn_eq_filter, held.childrenIn_eq wellFormed, List.map_map, List.map_map]
  apply List.map_congr_left
  intro entry member
  exact ((held.of_mem_children (List.mem_filter.mp member).1).tree?_eq wellFormed).symm

/-! ### The first child in a role -/

theorem childIn_eq (held : branch.HeldIn store) (wellFormed : store.WellFormed) (role : Role) :
    store.childIn (some branch.id) role = (branch.child? role).map Branch.id := by
  rw [Store.childIn, held.childrenIn_eq wellFormed, List.head?_map, List.head?_filter,
    Branch.child?, Option.map_map]
  rfl

theorem of_child?
    (held : branch.HeldIn store) {role : Role} {child : Branch}
    (found : branch.child? role = some child) :
    child.HeldIn store := by
  obtain ⟨entry, foundEntry, rfl⟩ := Option.map_eq_some_iff.mp found
  exact held.of_mem_children (List.mem_of_find?_eq_some foundEntry)

/-- A question about the first child in a role is one about a branch there. -/
theorem ask_childIn
    {α : Type} (held : branch.HeldIn store) (wellFormed : store.WellFormed) (role : Role)
    (ask : NodeRef → Option α) (absent : ask none = none) :
    ask (store.childIn (some branch.id) role) =
      (branch.child? role).bind fun child => ask (some child.id) := by
  rw [held.childIn_eq wellFormed]
  cases branch.child? role with
  | none =>
      exact absent
  | some child =>
      rfl

theorem payload?_childIn
    (held : branch.HeldIn store) (wellFormed : store.WellFormed) (role : Role) :
    store.payload? (store.childIn (some branch.id) role) =
      (branch.child? role).map Branch.payload := by
  rw [held.ask_childIn wellFormed role store.payload? rfl]
  cases found : branch.child? role with
  | none =>
      rfl
  | some child =>
      exact (held.of_child? found).payload?_eq

theorem member?_eq (held : branch.HeldIn store) :
    store.member? (some branch.id) = branch.annotations.member := by
  obtain ⟨node, found, _, sameAnnotations, _⟩ := held.exists_node
  rw [Store.member?, found, Option.bind_some, sameAnnotations]

theorem type?_eq (held : branch.HeldIn store) :
    store.type? (some branch.id) = branch.annotations.type := by
  obtain ⟨node, found, _, sameAnnotations, _⟩ := held.exists_node
  rw [Store.type?, found, Option.bind_some, sameAnnotations]

end HeldIn

end Branch

end TypedJava
