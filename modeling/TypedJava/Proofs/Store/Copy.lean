import TypedJava.Proofs.Store.Attach

/-! # Copying keeps a store well-formed

A copy is built from the top down. Each step adds the copy of one child under the copy of its
parent, and no step looks at a node that the copy has already finished, so the nodes of the
original stay as they are. -/

namespace TypedJava

namespace Node

/-- The copy of a node before its children are copied. -/
def copyAt (node : Node) (place : Option Place) : Node :=
  { Node.ofPayload node.payload with annotations := node.annotations, place := place }

@[simp]
theorem childrenIn_copyAt (node : Node) (place : Option Place) (role : Role) :
    (node.copyAt place).childrenIn role = [] :=
  childrenIn_ofPayload node.payload role

@[simp]
theorem slots_copyAt_roles (node : Node) (place : Option Place) :
    (node.copyAt place).slots.map (·.role) = node.kind.roles :=
  slots_ofPayload_roles node.payload

end Node

namespace Store

variable {store : Store}

section CopyUnder

variable (place : Place) {source : NodeId} {node : Node}

@[simp]
theorem fst_copyUnder (store : Store) (place : Place) (source : NodeId) :
    (store.copyUnder place source).1 = store.size := by
  unfold copyUnder
  split <;> rfl

theorem size_copyUnder (found : store.node? (some source) = some node) :
    (store.copyUnder place source).2.size = store.size + 1 := by
  simp [copyUnder, found, push, size, update]

/-- The nodes after one child has been copied. -/
theorem node?_copyUnder
    (found : store.node? (some source) = some node) (bound : place.parent < store.size)
    (id : NodeId) :
    (store.copyUnder place source).2.node? (some id) =
      if id = store.size then some (node.copyAt (some place))
      else if id = place.parent then
        (store.node? (some id)).map (·.updateSlot place.role (· ++ [store.size]))
      else store.node? (some id) := by
  have pushed :
      (store.copyUnder place source).2 =
        (store.push (node.copyAt (some place))).2.update place.parent
          (·.updateSlot place.role (· ++ [store.size])) := by
    simp [copyUnder, found, push, Node.copyAt]
  rw [pushed, node?_update, node?_push]
  by_cases same : id = store.size
  · have notParent : id ≠ place.parent := same ▸ Nat.ne_of_gt bound
    simp [same, same ▸ notParent]
  · simp [same]

theorem keeps_copyUnder
    (found : store.node? (some source) = some node) (bound : place.parent < store.size) :
    store.Keeps (store.copyUnder place source).2 (· = place.parent) := by
  refine ⟨?_, fun id idBound untouched => ?_⟩
  · rw [size_copyUnder place found]
    exact Nat.le_succ _
  · rw [node?_copyUnder place found bound, if_neg (Nat.ne_of_lt idBound), if_neg untouched]

theorem node?_copyUnder_size
    (found : store.node? (some source) = some node) (bound : place.parent < store.size) :
    (store.copyUnder place source).2.node? (some store.size) =
      some (node.copyAt (some place)) := by
  rw [node?_copyUnder place found bound, if_pos rfl]

/-- Copying one child adds its copy to one list. -/
theorem childrenIn_copyUnder
    (found : store.node? (some source) = some node)
    {parent : Node} (foundParent : store.node? (some place.parent) = some parent)
    (present : place.role ∈ parent.slots.map (·.role)) (id : NodeId) (role : Role) :
    (store.copyUnder place source).2.childrenIn (some id) role =
      if id = place.parent ∧ role = place.role then
        store.childrenIn (some id) role ++ [store.size]
      else store.childrenIn (some id) role := by
  have bound := lt_size_of_node? foundParent
  simp only [childrenIn, node?_copyUnder place found bound]
  by_cases same : id = store.size
  · have notParent : store.size ≠ place.parent := Nat.ne_of_gt bound
    simp [same, notParent, node?_size]
  · by_cases isParent : id = place.parent
    · subst isParent
      simp [same, foundParent, Node.childrenIn_updateSlot parent _ present]
    · simp [same, isParent]

/-- Copying a child under a node with room for it is like adding the copy and attaching it. -/
theorem WellFormed.copyUnder
    (wellFormed : store.WellFormed) (found : store.node? (some source) = some node)
    {parent : Node} (foundParent : store.node? (some place.parent) = some parent)
    (present : place.role ∈ parent.slots.map (·.role))
    (room : place.role.holdsMany = false →
      store.childrenIn (some place.parent) place.role = []) :
    (store.copyUnder place source).2.WellFormed := by
  have bound := lt_size_of_node? foundParent
  let fresh := node.copyAt none
  have pushed : (store.push fresh).2.WellFormed :=
    wellFormed.push (node.slots_copyAt_roles none) rfl (node.childrenIn_copyAt none)
  have sameChildren (id : NodeId) (role : Role) :
      (store.push fresh).2.childrenIn (some id) role = store.childrenIn (some id) role :=
    childrenIn_push_of_childless (node.childrenIn_copyAt none) id role
  have attachable : (store.push fresh).2.Attachable place store.size := by
    refine ⟨by simp, ?_, ⟨parent, ?_, present⟩, ?_, ?_⟩
    · rw [place?, node?_push, if_pos rfl]
      rfl
    · rw [node?_push_of_lt bound, foundParent]
    · apply pushed.not_above_of_childless
      · intro role
        rw [sameChildren, childrenIn, node?_size]
      · exact Nat.ne_of_gt bound
    · intro single
      rw [sameChildren, room single]
  have attached := pushed.attach attachable (store.childrenIn (some place.parent) place.role).length
  apply attached.of_same_links
  · intro id copied foundCopied
    rw [node?_copyUnder place found bound] at foundCopied
    by_cases same : id = store.size
    · rw [if_pos same] at foundCopied
      cases foundCopied
      exact node.slots_copyAt_roles (some place)
    · rw [if_neg same] at foundCopied
      by_cases isParent : id = place.parent
      · rw [if_pos isParent, isParent, foundParent] at foundCopied
        cases foundCopied
        rw [Node.map_role_updateSlot, wellFormed.slots_match _ parent foundParent]
        rfl
      · rw [if_neg isParent] at foundCopied
        exact wellFormed.slots_match id copied foundCopied
  · intro id
    rw [place?_attach (by simp)]
    by_cases same : id = store.size
    · rw [same, if_pos rfl, place?, node?_copyUnder_size place found bound]
      rfl
    · rw [if_neg same, place?_push_of_unplaced (by rfl), place?, node?_copyUnder place found bound,
        if_neg same]
      by_cases isParent : id = place.parent
      · simp [isParent, foundParent, place?]
      · rw [if_neg isParent, place?]
  · intro id role
    have foundParent' : (store.push fresh).2.node? (some place.parent) = some parent := by
      rw [node?_push_of_lt bound, foundParent]
    rw [childrenIn_copyUnder place found foundParent present, childrenIn_attach foundParent' present,
      sameChildren]
    by_cases here : id = place.parent ∧ role = place.role
    · rw [if_pos here, if_pos here, here.1, here.2, insertAt_length]
    · rw [if_neg here, if_neg here]

end CopyUnder

/-! ## Copying the children of a node -/

/-- Copies one child and notes the copy, as `copyChildren` does for each child in turn. -/
def copyEntry (copy : NodeId) (state : List (NodeId × NodeId) × Store) (entry : Role × NodeId) :
    List (NodeId × NodeId) × Store :=
  ((entry.2, (state.2.copyUnder ⟨copy, entry.1⟩ entry.2).1) :: state.1,
    (state.2.copyUnder ⟨copy, entry.1⟩ entry.2).2)

theorem copyChildren_eq_foldl (node : Node) (copy : NodeId) (store : Store) :
    store.copyChildren node copy = node.listing.foldl (copyEntry copy) ([], store) := by
  simp only [copyChildren, Node.listing, List.foldl_flatMap, List.foldl_map]
  rfl

/-- A node of the original and a copy of it that has no children yet. -/
def Pending (original store : Store) (pair : NodeId × NodeId) : Prop :=
  original.size ≤ pair.2 ∧
    ∃ node place, original.node? (some pair.1) = some node ∧
      store.node? (some pair.2) = some (node.copyAt place)

theorem Pending.of_keeps
    {original changed : Store} {pair : NodeId × NodeId} {touched : NodeId → Prop}
    (pending : Pending original store pair) (keeps : store.Keeps changed touched)
    (untouched : ¬ touched pair.2) :
    Pending original changed pair := by
  obtain ⟨isNew, node, place, inOriginal, inStore⟩ := pending
  exact ⟨isNew, node, place, inOriginal, keeps.node?_eq inStore untouched⟩

/-- The store while the children of a node are copied: the noted copies are new and different, and
the entries still to come have room. -/
structure CopyingChildren (original start : Store) (copy : NodeId)
    (entries : List (Role × NodeId)) (state : List (NodeId × NodeId) × Store) : Prop where
  wellFormed : state.2.WellFormed
  touched : start.Keeps state.2 (· = copy)
  valid : copy < start.size
  keeps : original.Keeps state.2 fun _ => False
  isParent : ∃ parent, state.2.node? (some copy) = some parent ∧
    ∀ entry ∈ entries, entry.1 ∈ parent.slots.map (·.role)
  isCopy : original.size ≤ copy
  fromOriginal : ∀ entry ∈ entries, entry.2 < original.size
  room : ∀ role, role.holdsMany = false →
    (state.2.childrenIn (some copy) role).length +
      (entries.filter fun entry => entry.1 = role).length ≤ 1
  pending : ∀ pair ∈ state.1, Pending original state.2 pair ∧ start.size ≤ pair.2
  nodup : (state.1.map (·.2)).Nodup

theorem CopyingChildren.copyEntry
    {original start : Store} {copy : NodeId} {entry : Role × NodeId}
    {entries : List (Role × NodeId)} {state : List (NodeId × NodeId) × Store}
    (copying : CopyingChildren original start copy (entry :: entries) state) :
    CopyingChildren original start copy entries (Store.copyEntry copy state entry) := by
  obtain ⟨pairs, store⟩ := state
  obtain ⟨role, child⟩ := entry
  obtain ⟨parent, foundParent, present⟩ := copying.isParent
  have childBound := copying.fromOriginal _ List.mem_cons_self
  obtain ⟨node, foundOriginal⟩ := exists_node?_of_lt_size childBound
  have found : store.node? (some child) = some node :=
    copying.keeps.node?_eq foundOriginal (fun impossible => impossible)
  have bound : copy < store.size := lt_size_of_node? foundParent
  have hasRole : role ∈ parent.slots.map (·.role) := present _ List.mem_cons_self
  have keeps := keeps_copyUnder ⟨copy, role⟩ found bound
  have children := childrenIn_copyUnder ⟨copy, role⟩ found foundParent hasRole
  have room : role.holdsMany = false → store.childrenIn (some copy) role = [] := by
    intro single
    have short := copying.room role single
    rw [List.filter_cons_of_pos (by simp)] at short
    apply List.eq_nil_of_length_eq_zero
    simp only [List.length_cons] at short
    omega
  refine ⟨?_, copying.touched.trans keeps fun _ _ same => same, copying.valid, ?_, ?_,
    copying.isCopy, ?_, ?_, ?_, ?_⟩
  · exact copying.wellFormed.copyUnder ⟨copy, role⟩ found foundParent hasRole room
  · refine copying.keeps.trans keeps fun id idBound same => ?_
    have idIsCopy : id = copy := same
    rw [idIsCopy] at idBound
    exact absurd idBound (Nat.not_lt_of_le copying.isCopy)
  · refine ⟨parent.updateSlot role (· ++ [store.size]), ?_, ?_⟩
    · rw [Store.copyEntry, node?_copyUnder ⟨copy, role⟩ found bound,
        if_neg (Nat.ne_of_lt bound), if_pos rfl, foundParent]
      rfl
    · intro other member
      rw [Node.map_role_updateSlot]
      exact present other (List.mem_cons_of_mem _ member)
  · exact fun other member => copying.fromOriginal other (List.mem_cons_of_mem _ member)
  · intro other single
    have short := copying.room other single
    rw [Store.copyEntry, children]
    by_cases same : other = role
    · rw [List.filter_cons_of_pos (by simpa using same.symm)] at short
      rw [if_pos ⟨rfl, same⟩, List.length_append]
      simp only [List.length_cons, List.length_nil] at short ⊢
      omega
    · rw [List.filter_cons_of_neg (by simpa using Ne.symm same)] at short
      rwa [if_neg fun here => same here.2]
  · intro pair member
    rw [Store.copyEntry, fst_copyUnder] at member
    rcases List.mem_cons.mp member with same | earlier
    · subst same
      refine ⟨⟨Nat.le_trans copying.isCopy (Nat.le_of_lt bound), node, some ⟨copy, role⟩,
        foundOriginal, ?_⟩, ?_⟩
      · exact node?_copyUnder_size ⟨copy, role⟩ found bound
      · exact copying.touched.size_le
    · obtain ⟨pending, sinceStart⟩ := copying.pending pair earlier
      refine ⟨pending.of_keeps keeps fun same => ?_, sinceStart⟩
      have isParent : pair.2 = copy := same
      rw [isParent] at sinceStart
      exact absurd copying.valid (Nat.not_lt_of_le sinceStart)
  · rw [Store.copyEntry, fst_copyUnder, List.map_cons, List.nodup_cons]
    refine ⟨fun member => ?_, copying.nodup⟩
    obtain ⟨pair, earlier, same⟩ := List.mem_map.mp member
    obtain ⟨⟨_, _, _, _, inStore⟩, _⟩ := copying.pending pair earlier
    exact absurd same (Nat.ne_of_lt (lt_size_of_node? inStore))

theorem CopyingChildren.foldl
    {original start : Store} {copy : NodeId} {entries : List (Role × NodeId)}
    {state : List (NodeId × NodeId) × Store}
    (copying : CopyingChildren original start copy entries state) :
    CopyingChildren original start copy [] (entries.foldl (Store.copyEntry copy) state) := by
  induction entries generalizing state with
  | nil =>
      exact copying
  | cons entry entries inductionHypothesis =>
      exact inductionHypothesis copying.copyEntry

/-! ## Copying a tree -/

/-- The children of a node may be copied under a copy of the node. -/
theorem copyingChildren_start
    {original : Store} (originalWellFormed : original.WellFormed)
    {store : Store} (wellFormed : store.WellFormed)
    (keeps : original.Keeps store fun _ => False)
    {source copy : NodeId} (isCopy : original.size ≤ copy)
    {node : Node} (foundOriginal : original.node? (some source) = some node)
    {place : Option Place} (foundCopy : store.node? (some copy) = some (node.copyAt place)) :
    CopyingChildren original store copy node.listing ([], store) := by
  have nodup := originalWellFormed.roles_nodup foundOriginal
  have lists (role : Role) := childrenIn_of_node? foundOriginal role
  refine ⟨wellFormed, .refl _ _, lt_size_of_node? foundCopy, keeps, ⟨_, foundCopy, ?_⟩, isCopy,
    ?_, ?_, ?_, List.nodup_nil⟩
  · rintro ⟨role, child⟩ member
    rw [Node.mem_listing_iff nodup] at member
    obtain ⟨slot, slotMember, sameRole, _⟩ := Slot.exists_slot_of_mem_childrenIn member
    rw [Node.slots_copyAt_roles, ← originalWellFormed.slots_match _ _ foundOriginal]
    exact sameRole ▸ List.mem_map_of_mem slotMember
  · rintro ⟨role, child⟩ member
    rw [Node.mem_listing_iff nodup, ← lists] at member
    exact lt_size_of_place? (originalWellFormed.listed _ _ _ member)
  · intro role single
    have short := originalWellFormed.single source role single
    rw [lists, ← Node.childrenIn_eq_filter_listing nodup, List.length_map] at short
    rw [childrenIn_of_node? foundCopy, Node.childrenIn_copyAt, List.length_nil, Nat.zero_add]
    exact short
  · exact fun pair member => absurd member List.not_mem_nil

/-- The store while some copies wait for what is below their originals. -/
structure CopiesWaiting (original store : Store) (pairs : List (NodeId × NodeId)) : Prop where
  wellFormed : store.WellFormed
  keeps : original.Keeps store fun _ => False
  pending : ∀ pair ∈ pairs, Pending original store pair
  nodup : (pairs.map (·.2)).Nodup

theorem CopyingChildren.copiesWaiting
    {original start : Store} {copy : NodeId} {state : List (NodeId × NodeId) × Store}
    (copying : CopyingChildren original start copy [] state) :
    CopiesWaiting original state.2 state.1 :=
  ⟨copying.wellFormed, copying.keeps, fun pair member => (copying.pending pair member).1,
    copying.nodup⟩

namespace CopiesWaiting

variable {original next : Store} {pair : NodeId × NodeId} {pairs : List (NodeId × NodeId)}

theorem head (waiting : CopiesWaiting original store (pair :: pairs)) :
    CopiesWaiting original store [pair] :=
  ⟨waiting.wellFormed, waiting.keeps, by simpa using waiting.pending pair List.mem_cons_self,
    List.nodup_singleton _⟩

/-- A step that only touches the first copy leaves the others waiting. -/
theorem tail
    (waiting : CopiesWaiting original store (pair :: pairs)) (wellFormed : next.WellFormed)
    (keeps : store.Keeps next (· = pair.2)) :
    CopiesWaiting original next pairs := by
  have nodup := waiting.nodup
  rw [List.map_cons, List.nodup_cons] at nodup
  refine ⟨wellFormed, waiting.keeps.trans keeps fun id bound same => ?_, fun other member => ?_,
    nodup.2⟩
  · have isCopy : id = pair.2 := same
    rw [isCopy] at bound
    exact absurd bound (Nat.not_lt_of_le (waiting.pending pair List.mem_cons_self).1)
  · exact (waiting.pending other (List.mem_cons_of_mem _ member)).of_keeps keeps fun same =>
      nodup.1 (same ▸ List.mem_map_of_mem member)

/-- A step that only touches a given copy may be taken for one copy after the other. -/
theorem foldl
    {step : Store → NodeId × NodeId → Store}
    (stepKeeps : ∀ store pair, CopiesWaiting original store [pair] →
      (step store pair).WellFormed ∧ store.Keeps (step store pair) (· = pair.2))
    (waiting : CopiesWaiting original store pairs) :
    (pairs.foldl step store).WellFormed ∧
      store.Keeps (pairs.foldl step store) (· ∈ pairs.map (·.2)) := by
  induction pairs generalizing store with
  | nil =>
      exact ⟨waiting.wellFormed, .refl _ _⟩
  | cons pair pairs inductionHypothesis =>
      obtain ⟨stepWellFormed, stepTouches⟩ := stepKeeps store pair waiting.head
      obtain ⟨lastWellFormed, restTouches⟩ :=
        inductionHypothesis (waiting.tail stepWellFormed stepTouches)
      refine ⟨lastWellFormed, ?_⟩
      rw [List.foldl_cons, List.map_cons]
      exact (stepTouches.weaken fun _ _ same => List.mem_cons.mpr (Or.inl same)).trans restTouches
        fun _ _ member => List.mem_cons_of_mem _ member

end CopiesWaiting

/-- What is below a node is copied without touching anything but the copy. -/
theorem WellFormed.copyBelow
    {original : Store} (originalWellFormed : original.WellFormed) (fuel : Nat)
    {store : Store} {pair : NodeId × NodeId} (waiting : CopiesWaiting original store [pair]) :
    (store.copyBelow fuel pair.1 pair.2).WellFormed ∧
      store.Keeps (store.copyBelow fuel pair.1 pair.2) (· = pair.2) := by
  induction fuel generalizing store pair with
  | zero =>
      exact ⟨waiting.wellFormed, .refl _ _⟩
  | succ fuel inductionHypothesis =>
      obtain ⟨source, copy⟩ := pair
      have pending := waiting.pending _ List.mem_cons_self
      obtain ⟨isCopy, node, place, foundOriginal, foundCopy⟩ := pending
      have found : store.node? (some source) = some node :=
        waiting.keeps.node?_eq foundOriginal (fun impossible => impossible)
      have copied := (copyingChildren_start originalWellFormed waiting.wellFormed waiting.keeps
        isCopy foundOriginal foundCopy).foldl
      simp only [Store.copyBelow, found]
      rw [copyChildren_eq_foldl]
      generalize node.listing.foldl (copyEntry copy) ([], store) = state at copied
      obtain ⟨pairs, middle⟩ := state
      obtain ⟨lastWellFormed, keepsRest⟩ := copied.copiesWaiting.foldl
        fun _ _ ready => inductionHypothesis ready
      refine ⟨lastWellFormed, copied.touched.trans keepsRest fun id bound member => ?_⟩
      obtain ⟨pair, isPair, rfl⟩ := List.mem_map.mp member
      exact absurd bound (Nat.not_lt_of_le (copied.pending pair isPair).2)

/-- A tree is copied by adding a copy of the top and then what is below it. -/
theorem copyTree_of_node?
    {source : NodeId} {node : Node} (found : store.node? (some source) = some node) :
    store.copyTree (some source) =
      (some store.size,
        (store.push (node.copyAt none)).2.copyBelow store.size source store.size) := by
  simp only [Store.copyTree, found]
  rfl

/-- The copy of the top waits for the rest. -/
theorem WellFormed.copiesWaiting_push
    (wellFormed : store.WellFormed) {source : NodeId} {node : Node}
    (found : store.node? (some source) = some node) :
    CopiesWaiting store (store.push (node.copyAt none)).2 [(source, store.size)] := by
  refine ⟨wellFormed.push (node.slots_copyAt_roles none) rfl (node.childrenIn_copyAt none),
    ⟨by simp, fun id bound _ => node?_push_of_lt bound _⟩, fun pair member => ?_,
    List.nodup_singleton _⟩
  rw [List.mem_singleton.mp member]
  refine ⟨Nat.le_refl _, node, none, found, ?_⟩
  rw [node?_push, if_pos rfl]

/-- A copy of a tree is added beside what is there. -/
theorem WellFormed.copyTree (wellFormed : store.WellFormed) (reference : NodeRef) :
    (store.copyTree reference).2.WellFormed ∧
      store.Keeps (store.copyTree reference).2 fun _ => False := by
  cases reference with
  | none =>
      exact ⟨wellFormed, .refl _ _⟩
  | some source =>
      cases found : store.node? (some source) with
      | none =>
          simp only [Store.copyTree, found]
          exact ⟨wellFormed, .refl _ _⟩
      | some node =>
          have waiting := wellFormed.copiesWaiting_push found
          obtain ⟨copied, keepsRest⟩ := wellFormed.copyBelow store.size waiting
          rw [copyTree_of_node? found]
          exact ⟨copied, waiting.keeps.trans keepsRest fun id bound same =>
            absurd same (Nat.ne_of_lt bound)⟩

end Store

end TypedJava
