import TypedJava.Proofs.Branch.InStore

/-! # Branches and what is around them

A frame is a node with a gap among its children. A branch with the frames around it, up to a node
without a parent, is hosted by a store if the store holds the whole. -/

namespace TypedJava

/-- A node with a gap for one child in a role. -/
structure Frame where
  parent : NodeId
  payload : Payload
  annotations : Annotations
  role : Role
  before : List (Role × Branch)
  after : List (Role × Branch)

namespace Frame

/-- Puts a branch into the gap. -/
def fill (frame : Frame) (branch : Branch) : Branch :=
  .node frame.parent frame.payload frame.annotations
    (frame.before ++ (frame.role, branch) :: frame.after)

/-- The place of the gap. -/
def place (frame : Frame) : Place :=
  ⟨frame.parent, frame.role⟩

@[simp]
theorem id_fill (frame : Frame) (branch : Branch) : (frame.fill branch).id = frame.parent :=
  rfl

theorem ids_fill (frame : Frame) (branch : Branch) :
    (frame.fill branch).ids =
      frame.parent :: (Branch.idsOfAll frame.before ++ branch.ids ++
        Branch.idsOfAll frame.after) := by
  rw [fill, Branch.ids, Branch.idsOfAll_append, Branch.idsOfAll, List.append_assoc]

theorem mem_children_fill (frame : Frame) (branch : Branch) :
    (frame.role, branch) ∈ (frame.fill branch).children :=
  List.mem_append_right _ List.mem_cons_self

end Frame

namespace Branch

/-- The branch with frames around it, the innermost first. -/
def within : List Frame → Branch → Branch
  | [], branch => branch
  | frame :: frames, branch => within frames (frame.fill branch)

/-- The nodes of the frames that come before the branch. -/
def idsBefore : List Frame → List NodeId
  | [] => []
  | frame :: frames => idsBefore frames ++ frame.parent :: idsOfAll frame.before

/-- The nodes of the frames that come after the branch. -/
def idsAfter : List Frame → List NodeId
  | [] => []
  | frame :: frames => idsOfAll frame.after ++ idsAfter frames

/-- The nodes of the frames. -/
def idsAround (frames : List Frame) : List NodeId :=
  idsBefore frames ++ idsAfter frames

theorem ids_within (frames : List Frame) (branch : Branch) :
    (within frames branch).ids = idsBefore frames ++ branch.ids ++ idsAfter frames := by
  induction frames generalizing branch with
  | nil =>
      rw [within, idsBefore, idsAfter, List.nil_append, List.append_nil]
  | cons frame frames inductionHypothesis =>
      rw [within, inductionHypothesis, Frame.ids_fill, idsBefore, idsAfter]
      simp only [List.append_assoc, List.cons_append]

theorem id_within_cons (frame : Frame) (frames : List Frame) (branch other : Branch) :
    (within (frame :: frames) branch).id = (within (frame :: frames) other).id := by
  rw [within, within]
  induction frames generalizing frame branch other with
  | nil =>
      rfl
  | cons upper frames inductionHypothesis =>
      exact inductionHypothesis upper (frame.fill branch) (frame.fill other)

theorem mem_idsAround_cons {frame : Frame} {frames : List Frame} {id : NodeId} :
    id ∈ idsAround (frame :: frames) ↔
      id = frame.parent ∨ id ∈ idsOfAll frame.before ∨ id ∈ idsOfAll frame.after ∨
        id ∈ idsAround frames := by
  simp only [idsAround, idsBefore, idsAfter, List.mem_append, List.mem_cons]
  tauto

theorem id_within_mem_idsAround (frame : Frame) (frames : List Frame) (branch : Branch) :
    (within (frame :: frames) branch).id ∈ idsAround (frame :: frames) := by
  induction frames generalizing frame branch with
  | nil =>
      exact mem_idsAround_cons.mpr (Or.inl rfl)
  | cons upper frames inductionHypothesis =>
      rw [mem_idsAround_cons]
      exact Or.inr (Or.inr (Or.inr (inductionHypothesis upper (frame.fill branch))))

variable {store : Store}

theorem HeldIn.fill
    {frame : Frame} {branch : Branch} (held : branch.HeldIn store)
    (content : store.content? frame.parent =
      some (frame.payload, frame.annotations,
        entries (frame.before ++ (frame.role, branch) :: frame.after)))
    (before : ∀ entry ∈ frame.before, entry.2.HeldIn store)
    (after : ∀ entry ∈ frame.after, entry.2.HeldIn store) :
    (frame.fill branch).HeldIn store := by
  refine .node content fun entry member => ?_
  rcases List.mem_append.mp member with earlier | later
  · exact before entry earlier
  · rcases List.mem_cons.mp later with rfl | later
    · exact held
    · exact after entry later

theorem HeldIn.of_within
    {frames : List Frame} {branch : Branch} (held : (within frames branch).HeldIn store) :
    branch.HeldIn store := by
  induction frames generalizing branch with
  | nil =>
      exact held
  | cons frame frames inductionHypothesis =>
      exact (inductionHypothesis held).of_mem_children (frame.mem_children_fill branch)

theorem mem_before_children
    {frame : Frame} {entry : Role × Branch} (member : entry ∈ frame.before) (branch : Branch) :
    entry ∈ (frame.fill branch).children :=
  List.mem_append_left _ member

theorem mem_after_children
    {frame : Frame} {entry : Role × Branch} (member : entry ∈ frame.after) (branch : Branch) :
    entry ∈ (frame.fill branch).children :=
  List.mem_append_right _ (List.mem_cons_of_mem _ member)

/-- A branch in frames may be exchanged for one with the same top where the frames stay as they
are. -/
theorem HeldIn.exchange
    {frames : List Frame} {branch : Branch} (held : (within frames branch).HeldIn store)
    {changed : Store} {other : Branch} (otherHeld : other.HeldIn changed)
    (sameTop : other.id = branch.id)
    (same : ∀ id ∈ idsAround frames, changed.content? id = store.content? id) :
    (within frames other).HeldIn changed := by
  induction frames generalizing branch other with
  | nil =>
      exact otherHeld
  | cons frame frames inductionHypothesis =>
      rw [within] at held ⊢
      have whole := held.of_within
      refine inductionHypothesis held ?_ rfl fun id member =>
        same id (mem_idsAround_cons.mpr (Or.inr (Or.inr (Or.inr member))))
      refine otherHeld.fill ?_ (fun entry member => ?_) fun entry member => ?_
      · have content := whole.content
        rw [Frame.id_fill] at content
        rw [same frame.parent (mem_idsAround_cons.mpr (Or.inl rfl)), content]
        simp only [Frame.fill, payload, annotations, children, entries, List.map_append,
          List.map_cons, sameTop]
      · refine (whole.of_mem_children (mem_before_children member branch)).of_content_eq ?_
        intro id found
        exact same id (mem_idsAround_cons.mpr
          (Or.inr (Or.inl (mem_idsOfAll.mpr ⟨entry, member, found⟩))))
      · refine (whole.of_mem_children (mem_after_children member branch)).of_content_eq ?_
        intro id found
        exact same id (mem_idsAround_cons.mpr
          (Or.inr (Or.inr (Or.inl (mem_idsOfAll.mpr ⟨entry, member, found⟩)))))

/-- The store holds the branch with the frames around it, and nothing is above them. -/
structure Hosted (store : Store) (frames : List Frame) (branch : Branch) : Prop where
  whole : (within frames branch).HeldIn store
  unplaced : store.place? (some (within frames branch).id) = none

namespace Hosted

variable {frames : List Frame} {frame : Frame} {branch : Branch}

theorem held (hosted : Hosted store frames branch) : branch.HeldIn store :=
  hosted.whole.of_within

theorem outer (hosted : Hosted store (frame :: frames) branch) :
    Hosted store frames (frame.fill branch) :=
  ⟨hosted.whole, hosted.unplaced⟩

theorem place?_eq
    (hosted : Hosted store (frame :: frames) branch) (wellFormed : store.WellFormed) :
    store.place? (some branch.id) = some frame.place :=
  hosted.outer.held.place?_of_mem_children wellFormed (frame.mem_children_fill branch)

theorem place?_eq_none (hosted : Hosted store [] branch) :
    store.place? (some branch.id) = none :=
  hosted.unplaced

/-- The children in the role of a gap: those before it, the branch and those after it. -/
theorem childrenIn_gap
    (hosted : Hosted store (frame :: frames) branch) (wellFormed : store.WellFormed) :
    store.childrenIn (some frame.parent) frame.role =
      ((frame.before.filter fun entry => entry.1 = frame.role).map fun entry => entry.2.id) ++
        branch.id ::
        (frame.after.filter fun entry => entry.1 = frame.role).map fun entry => entry.2.id := by
  have listed := hosted.outer.held.childrenIn_eq wellFormed frame.role
  rw [Frame.id_fill] at listed
  rw [listed]
  simp [Frame.fill, children]

theorem nodup (hosted : Hosted store frames branch) (wellFormed : store.WellFormed) :
    (idsBefore frames ++ branch.ids ++ idsAfter frames).Nodup := by
  rw [← ids_within]
  exact hosted.whole.ids_nodup wellFormed

/-- No node of the frames is in the branch. -/
theorem not_mem_ids_of_mem_idsAround
    (hosted : Hosted store frames branch) (wellFormed : store.WellFormed) {id : NodeId}
    (around : id ∈ idsAround frames) :
    id ∉ branch.ids := by
  intro member
  have nodup := hosted.nodup wellFormed
  rw [List.nodup_append, List.nodup_append] at nodup
  obtain ⟨⟨_, _, beforeDisjoint⟩, _, afterDisjoint⟩ := nodup
  rcases List.mem_append.mp around with before | after
  · exact beforeDisjoint id before id member rfl
  · exact afterDisjoint id (List.mem_append_right _ member) id after rfl

theorem parent_not_mem_ids
    (hosted : Hosted store (frame :: frames) branch) (wellFormed : store.WellFormed) :
    frame.parent ∉ branch.ids :=
  hosted.not_mem_ids_of_mem_idsAround wellFormed (mem_idsAround_cons.mpr (Or.inl rfl))

/-- The parent of the gap is none of the other nodes around. -/
theorem parent_not_mem_siblings
    (hosted : Hosted store (frame :: frames) branch) (wellFormed : store.WellFormed) :
    frame.parent ∉ idsOfAll frame.before ∧ frame.parent ∉ idsOfAll frame.after := by
  have nodup := hosted.outer.held.ids_nodup wellFormed
  rw [Frame.ids_fill, List.nodup_cons] at nodup
  simp only [List.mem_append, not_or] at nodup
  exact ⟨nodup.1.1.1, nodup.1.2⟩

theorem parent_not_mem_outer
    (hosted : Hosted store (frame :: frames) branch) (wellFormed : store.WellFormed) :
    frame.parent ∉ idsAround frames := by
  intro around
  exact hosted.outer.not_mem_ids_of_mem_idsAround wellFormed around
    (id_mem_ids (frame.fill branch))

theorem parent_lt_size (hosted : Hosted store (frame :: frames) branch) :
    frame.parent < store.size :=
  hosted.outer.held.id_lt_size

theorem lt_size_of_mem_idsAround (hosted : Hosted store frames branch) {id : NodeId}
    (around : id ∈ idsAround frames) :
    id < store.size := by
  refine hosted.whole.lt_size ?_
  rw [ids_within]
  rcases List.mem_append.mp around with before | after
  · exact List.mem_append_left _ (List.mem_append_left _ before)
  · exact List.mem_append_right _ after

end Hosted

/-- Every node of a well-formed store is hosted by it. -/
theorem exists_hosted
    (wellFormed : store.WellFormed) {id : NodeId} (bound : id < store.size) :
    ∃ frames branch, Hosted store frames branch ∧ branch.id = id := by
  induction wellFormed.rooted id with
  | @root id unplaced =>
      obtain ⟨branch, held, sameTop⟩ := exists_branch wellFormed bound
      exact ⟨[], branch, ⟨held, sameTop ▸ unplaced⟩, sameTop⟩
  | @step id place placed _ inductionHypothesis =>
      obtain ⟨frames, upper, hosted, sameTop⟩ :=
        inductionHypothesis (wellFormed.parent_lt_size placed)
      obtain ⟨parent, role⟩ := place
      cases sameTop
      obtain ⟨entry, member, sameRole, sameChild⟩ :=
        hosted.held.exists_child_of_place? wellFormed placed
      obtain ⟨before, after, split⟩ := List.append_of_mem member
      obtain ⟨top, payload, annotations, children⟩ := upper
      cases split
      exact ⟨⟨top, payload, annotations, entry.1, before, after⟩ :: frames, entry.2,
        ⟨hosted.whole, hosted.unplaced⟩, sameChild⟩

/-- Every attached node of a well-formed store is hosted with the frame of its place around it. -/
theorem exists_hosted_of_place?
    (wellFormed : store.WellFormed) {id : NodeId} {place : Place}
    (placed : store.place? (some id) = some place) :
    ∃ frame frames branch, Hosted store (frame :: frames) branch ∧ branch.id = id ∧
      frame.place = place := by
  obtain ⟨frames, branch, hosted, rfl⟩ := exists_hosted wellFormed (Store.lt_size_of_place? placed)
  cases frames with
  | nil =>
      rw [hosted.place?_eq_none] at placed
      cases placed
  | cons frame frames =>
      rw [hosted.place?_eq wellFormed] at placed
      exact ⟨frame, frames, branch, hosted, rfl, Option.some.inj placed⟩

theorem exists_hosted_of_mem_childrenIn
    (wellFormed : store.WellFormed) {parent child : NodeId} {role : Role}
    (listed : child ∈ store.childrenIn (some parent) role) :
    ∃ frame frames branch, Hosted store (frame :: frames) branch ∧ branch.id = child ∧
      frame.place = ⟨parent, role⟩ :=
  exists_hosted_of_place? wellFormed (wellFormed.listed parent role child listed)

end Branch

end TypedJava
