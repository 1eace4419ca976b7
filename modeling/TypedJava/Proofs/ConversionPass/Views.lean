import TypedJava.Proofs.ConversionPass.Steps
import TypedJava.Proofs.Typing.InStore

/-! # What the rules see

Every question that a rule asks about a hosted branch has the same answer in the store and in the
branch. -/

namespace TypedJava

namespace Branch

variable {store : Store} {frames : List Frame} {frame : Frame} {branch child : Branch}
  {context : Context} {role : Role}

theorem child?_fill (isFirst : frame.IsFirst role) (child : Branch) :
    (frame.fill child).child? role = some child := by
  have none : frame.before.find? (fun entry => entry.1 = role) = none := by
    rw [List.find?_eq_none]
    intro entry member
    simpa using isFirst.before entry member
  simp [Branch.child?, Frame.fill, children, List.find?_append, none, isFirst.role_eq]

theorem typeIn?_fill (isFirst : frame.IsFirst role) (child : Branch) :
    (frame.fill child).typeIn? context role = child.typeOf? context := by
  rw [typeIn?, child?_fill isFirst, Option.bind_some]

/-- The first child in a role stands in a gap. -/
theorem exists_frame (found : branch.child? role = some child) :
    ∃ frame : Frame, branch = frame.fill child ∧ frame.IsFirst role := by
  obtain ⟨parent, payload, annotations, children⟩ := branch
  obtain ⟨entry, foundEntry, rfl⟩ := Option.map_eq_some_iff.mp found
  obtain ⟨sameRole, before, after, split, others⟩ := List.find?_eq_some_iff_append.mp foundEntry
  obtain ⟨entryRole, child⟩ := entry
  simp only [decide_eq_true_eq] at sameRole
  subst sameRole
  refine ⟨⟨parent, payload, annotations, entryRole, before, after⟩, ?_, rfl, ?_⟩
  · rw [Frame.fill, ← split]
    rfl
  · intro entry member
    simpa using others entry member

/-- A branch with a typed child in a role has its first child there in a gap. -/
theorem exists_frame_of_typeIn?
    {type : Ty} (found : branch.typeIn? context role = some type) :
    ∃ (frame : Frame) (child : Branch), branch = frame.fill child ∧ frame.IsFirst role ∧
      child.typeOf? context = some type := by
  obtain ⟨child, foundChild, typed⟩ := Option.bind_eq_some_iff.mp found
  obtain ⟨frame, same, isFirst⟩ := exists_frame foundChild
  exact ⟨frame, child, same, isFirst, typed⟩

namespace HeldIn

theorem resolve_eq (held : branch.HeldIn store) (wellFormed : store.WellFormed) :
    store.resolve context (some branch.id) = branch.resolved? context := by
  rw [wellFormed.resolve_eq, held.tree?_eq wellFormed, Option.bind_some, resolved?]

theorem typeOf?_eq (held : branch.HeldIn store) (wellFormed : store.WellFormed) :
    store.typeOf? context (some branch.id) = branch.typeOf? context := by
  rw [Store.typeOf?, held.resolve_eq wellFormed, typeOf?]

theorem resolve_childIn (held : branch.HeldIn store) (wellFormed : store.WellFormed) (role : Role) :
    store.resolve context (store.childIn (some branch.id) role) =
      (branch.child? role).bind (·.resolved? context) := by
  rw [held.ask_childIn wellFormed role (store.resolve context) rfl]
  apply Option.bind_congr
  intro child found
  exact (held.of_child? found).resolve_eq wellFormed

theorem typeOf?_childIn (held : branch.HeldIn store) (wellFormed : store.WellFormed) (role : Role) :
    store.typeOf? context (store.childIn (some branch.id) role) = branch.typeIn? context role := by
  rw [Store.typeOf?, held.resolve_childIn wellFormed, typeIn?, Option.map_bind]
  rfl

/-- Beside the first child in a single role there is no other one in the role. -/
theorem role_ne_of_sibling
    (held : (frame.fill child).HeldIn store) (wellFormed : store.WellFormed)
    (isFirst : frame.IsFirst role) (single : role.holdsMany = false) {entry : Role × Branch}
    (sibling : entry ∈ frame.before ++ frame.after) :
    entry.1 ≠ role := by
  intro same
  rcases List.mem_append.mp sibling with before | after
  · exact isFirst.before entry before same
  · have short := wellFormed.single frame.parent role single
    have listed := held.childrenIn_eq wellFormed role
    rw [Frame.id_fill] at listed
    rw [listed, List.length_map, Frame.fill, children, List.filter_append, List.length_append,
      List.filter_cons_of_pos (by simp [isFirst.role_eq]), List.length_cons] at short
    have present : 0 < (frame.after.filter fun entry => entry.1 = role).length :=
      List.length_pos_of_mem (List.mem_filter.mpr ⟨after, by simpa using same⟩)
    omega

end HeldIn

namespace Hosted

theorem place?_head (hosted : Hosted store frames branch) (wellFormed : store.WellFormed) :
    store.place? (some branch.id) = frames.head?.map Frame.place := by
  cases frames with
  | nil =>
      exact hosted.place?_eq_none
  | cons frame frames =>
      exact hosted.place?_eq wellFormed

theorem accessedMember?_eq (hosted : Hosted store frames branch) (wellFormed : store.WellFormed) :
    store.accessedMember? (some branch.id) = branch.accessedMember? frames.head? := by
  rw [Store.accessedMember?, hosted.held.member?_eq, accessedMember?, Store.role?, Store.parent,
    hosted.place?_head wellFormed]
  cases frames with
  | nil =>
      rfl
  | cons frame frames =>
      have outer : store.member? (some frame.parent) = frame.annotations.member :=
        hosted.outer.held.member?_eq
      simp [Frame.place, outer]

theorem isNeedlessCast_eq (hosted : Hosted store frames branch) (wellFormed : store.WellFormed) :
    store.isNeedlessCast context (some branch.id) =
      branch.isNeedlessCast context frames.head? := by
  rw [Store.isNeedlessCast, isNeedlessCast, hosted.held.kind_eq,
    hosted.held.typeOf?_childIn wellFormed, hosted.held.resolve_childIn wellFormed,
    hosted.place?_head wellFormed]
  cases frames with
  | nil =>
      rfl
  | cons frame frames =>
      have types (role : Role) :
          store.typeOf? context (store.childIn (some frame.parent) role) =
            (frame.fill branch).typeIn? context role :=
        hosted.outer.held.typeOf?_childIn wellFormed role
      have payload : store.payload? (some frame.parent) = some frame.payload :=
        hosted.outer.held.payload?_eq
      have atPlace (source : Resolved) (castType : Ty) :
          store.isNeedlessAt context frame.place source castType =
            context.isNeedlessUnder (some frame.payload)
              (fun role => (frame.fill branch).typeIn? context role) frame.role source castType := by
        simp only [Store.isNeedlessAt, Frame.place, types, payload]
      cases branch.typeIn? context .type with
      | none =>
          rfl
      | some castType =>
          cases (branch.child? .expression).bind (·.resolved? context) with
          | none =>
              rfl
          | some source =>
              exact congrArg (fun needless => branch.payload.kind == .cast &&
                (source.type == castType || needless)) (atPlace source castType)

end Hosted

end Branch

end TypedJava
