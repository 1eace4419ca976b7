import TypedJava.Proofs.ConversionPass.Simulation
import TypedJava.Proofs.Edit.Levels

/-! # Levels along the conversion pass

The rewrites of the pass keep levels: what comes in the place of a node has its level. A run of
several edits may have to give the new nodes of each another level, so along a run the levels of the
old nodes stay and those of the new ones are chosen anew. -/

namespace TypedJava

namespace Edit

open Store

variable {α β : Type} {level : NodeId → Nat} {bound limit rank depth : Nat} {store : Store}
  {context : Context}

/-! ## The rewrites -/

namespace KeepsLevels

theorem release {value : NodeRef} (movable : ∀ id ∈ value, level id ≤ limit) :
    (Edit.release value).KeepsLevels level bound limit fun _ => True := by
  refine (asked _).bind fun parent _ => ?_
  split
  · exact detach movable
  · exact pure trivial

section New

variable (fresh : ∀ id, bound ≤ id → level id = rank) (inside : rank ≤ limit)

include fresh inside

theorem replaceByConditional
    {node value : NodeRef} (hasLevel : HasLevel level rank node)
    (below : FitsBelow level limit rank value) (target : Ty) :
    (Edit.replaceByConditional node value target).KeepsLevels level bound limit fun replaced =>
      ∀ conditional ∈ replaced, HasLevel level rank conditional := by
  rw [Edit.replaceByConditional]
  split
  · exact pure (by simp)
  · rename_i one zero _
    refine bind (replaceBy inside hasLevel ?_) fun conditional isNew => pure ?_
    · refine (release fun id member => (below id member).2.2).bind fun _ _ => ?_
      refine (mkNode fresh _).bind fun whenTrue isTrue => ?_
      refine (mkNode fresh _).bind fun whenFalse isFalse => ?_
      refine (mkNodeWith fresh _ ?_).bind fun _ isNew => pure (hasLevel_some.mpr isNew)
      intro entry member
      simp only [List.mem_cons, List.not_mem_nil, or_false] at member
      rcases member with rfl | rfl | rfl
      · exact below
      · exact (hasLevel_some.mpr isTrue).fitsBelow inside
      · exact (hasLevel_some.mpr isFalse).fitsBelow inside
    · rintro other member
      cases member
      exact isNew

theorem replaceByComparison
    {node value : NodeRef} (hasLevel : HasLevel level rank node)
    (below : FitsBelow level limit rank value) (kind : JvmKind) :
    (Edit.replaceByComparison node value kind).KeepsLevels level bound limit
      (HasLevel level rank) := by
  refine replaceBy inside hasLevel ?_
  refine (release fun id member => (below id member).2.2).bind fun _ _ => ?_
  refine (mkNode fresh _).bind fun literal isLiteral => ?_
  refine (mkNodeWith fresh _ ?_).bind fun _ isNew => pure (hasLevel_some.mpr isNew)
  intro entry member
  simp only [List.mem_cons, List.not_mem_nil, or_false] at member
  rcases member with rfl | rfl
  · exact below
  · exact (hasLevel_some.mpr isLiteral).fitsBelow inside

theorem wrapInCast
    {node : NodeRef} (hasLevel : HasLevel level rank node) (options : TypeSyntaxOptions)
    (type : Ty) :
    (Edit.wrapInCast context options node type).KeepsLevels level bound limit
      (HasLevel level rank) := by
  refine replaceBy inside hasLevel ?_
  refine (mkTypeWithin fresh inside _ _ 0).bind fun written isWritten => ?_
  refine (mkCast fresh inside ((hasLevel_some.mpr isWritten).fitsBelow inside)
    (hasLevel.fitsBelow inside)).bind fun _ isNew => pure (hasLevel_some.mpr isNew)

end New

end KeepsLevels

/-! ## Levels along a run -/

/-- Whatever node a reference leads to, it has a level. -/
theorem exists_hasLevel {node : NodeRef} (shallow : ∀ id ∈ node, level id ≤ depth) :
    ∃ rank, rank ≤ depth ∧ HasLevel level rank node := by
  cases node with
  | none =>
      exact ⟨0, Nat.zero_le _, fun _ impossible => nomatch impossible⟩
  | some id =>
      exact ⟨level id, shallow id rfl, hasLevel_some.mpr rfl⟩

/-- The children of a node fit below it. -/
theorem fitsBelow_childIn
    (leveled : store.Leveled level) {node : NodeRef} (hasLevel : HasLevel level rank node)
    (inside : rank + 1 ≤ limit) (role : Role) :
    FitsBelow level limit rank (store.childIn node role) := by
  intro id member
  cases node with
  | none =>
      cases member
  | some parent =>
      have listed := List.mem_of_mem_head? member
      obtain ⟨lower, upper⟩ := leveled.near id _ (leveled.wellFormed.listed parent role id listed)
      rw [hasLevel parent rfl] at lower upper
      exact ⟨lower, upper, Nat.le_trans upper inside⟩

section Later

variable {later : NodeId → Nat} (agrees : ∀ id < store.size, later id = level id)
  (fresh : ∀ id, store.size ≤ id → later id = rank)

include agrees fresh

/-- A node of the level that new nodes get has that level later on. -/
theorem HasLevel.transfer {node : NodeRef} (hasLevel : HasLevel level rank node) :
    HasLevel later rank node := by
  intro id member
  rcases Nat.lt_or_ge id store.size with old | new
  · rw [agrees id old, hasLevel id member]
  · exact fresh id new

theorem FitsBelow.transfer
    (inside : rank ≤ limit) {node : NodeRef} (below : FitsBelow level limit rank node) :
    FitsBelow later limit rank node := by
  intro id member
  rcases Nat.lt_or_ge id store.size with old | new
  · rw [agrees id old]
    exact below id member
  · rw [fresh id new]
    exact ⟨Nat.le_refl _, Nat.le_succ _, inside⟩

end Later

/-- Run on a store that the levels fit, the edit changes no node above the limit, and the levels of
the new nodes can be chosen such that the levels fit again. Its value is as stated. -/
def StaysWithin (limit : Nat) (edit : Edit α) (level : NodeId → Nat) (store : Store)
    (result : (NodeId → Nat) → α → Prop) : Prop :=
  ∃ later : NodeId → Nat, (∀ id < store.size, later id = level id) ∧
    (edit.run store).2.Leveled later ∧
    store.Keeps (edit.run store).2 (fun id => level id ≤ limit) ∧
    ∀ value, (edit.run store).1 = .ok value → result later value

/-- Run on any node up to a depth, the treatment changes no node above the limit. -/
def Treatment.StaysWithin (limit depth : Nat) (treatment : Treatment) : Prop :=
  ∀ level store node, store.Leveled level → (∀ id ∈ node, level id ≤ depth) →
    Edit.StaysWithin limit (treatment node) level store fun _ _ => True

namespace StaysWithin

variable {edit : Edit α} {next : α → Edit β} {result : (NodeId → Nat) → α → Prop}
  {final : (NodeId → Nat) → β → Prop}

theorem pure {value : α} (leveled : store.Leveled level) (holds : result level value) :
    StaysWithin limit (Pure.pure value : Edit α) level store result := by
  refine ⟨level, fun _ _ => rfl, leveled, .refl _ _, fun other same => ?_⟩
  cases same
  exact holds

theorem bind
    (first : StaysWithin limit edit level store result)
    (second : ∀ value changed later, edit.run store = (.ok value, changed) →
      changed.Leveled later → (∀ id < store.size, later id = level id) → result later value →
      StaysWithin limit (next value) later changed final) :
    StaysWithin limit (edit >>= next) level store final := by
  obtain ⟨later, agrees, leveled, keeps, holds⟩ := first
  rw [StaysWithin, run_bind]
  cases run : edit.run store with
  | mk outcome changed =>
      rw [run] at leveled keeps holds
      cases outcome with
      | ok value =>
          obtain ⟨latest, agreesToo, leveledToo, keepsToo, holdsToo⟩ :=
            second value changed later run leveled agrees (holds value rfl)
          refine ⟨latest, fun id old => ?_, leveledToo, keeps.trans keepsToo ?_, holdsToo⟩
          · rw [agreesToo id (Nat.lt_of_lt_of_le old keeps.size_le), agrees id old]
          · intro id old touched
            rw [agrees id old] at touched
            exact touched
      | error error =>
          exact ⟨later, agrees, leveled, keeps, fun _ impossible => nomatch impossible⟩

/-- A first step that only looks at the store. -/
theorem bind_of_run
    {value : α} (run : edit.run store = (.ok value, store))
    (second : StaysWithin limit (next value) level store final) :
    StaysWithin limit (edit >>= next) level store final := by
  rw [StaysWithin, run_bind_ok run]
  exact second

theorem of_run_eq
    {other : Edit α} (same : other.run store = edit.run store)
    (stays : StaysWithin limit edit level store result) :
    StaysWithin limit other level store result := by
  rw [StaysWithin, same]
  exact stays

/-- New nodes may all be given one level. -/
theorem of_keepsLevels
    {property : (NodeId → Nat) → α → Prop} (leveled : store.Leveled level) (rank : Nat)
    (keeps : ∀ later : NodeId → Nat, (∀ id < store.size, later id = level id) →
      (∀ id, store.size ≤ id → later id = rank) →
      edit.KeepsLevels later store.size limit (property later)) :
    StaysWithin limit edit level store property := by
  have agrees : ∀ id < store.size, Leveled.extend level store.size rank id = level id :=
    fun _ old => Leveled.extend_of_lt old
  obtain ⟨leveledLater, kept, holds⟩ :=
    keeps _ agrees (fun _ new => Leveled.extend_of_le new) store (Nat.le_refl _)
      (leveled.extended rank)
  refine ⟨_, agrees, leveledLater, kept.weaken fun id old touched => ?_, holds⟩
  rw [agrees id old] at touched
  exact touched

/-! ## The rewrites along a run -/

section Rewrites

variable (leveled : store.Leveled level) (inside : rank ≤ limit)

include leveled inside

theorem wrapInCast
    {node : NodeRef} (hasLevel : HasLevel level rank node) (options : TypeSyntaxOptions)
    (type : Ty) :
    StaysWithin limit (Edit.wrapInCast context options node type) level store fun later cast =>
      HasLevel later rank cast ∧ HasLevel later rank node :=
  of_keepsLevels leveled rank fun _ agrees fresh =>
    have sameLevel := hasLevel.transfer agrees fresh
    (KeepsLevels.wrapInCast fresh inside sameLevel options type).imp fun _ isCast =>
      ⟨isCast, sameLevel⟩

theorem replaceByConditional
    {node value : NodeRef} (hasLevel : HasLevel level rank node)
    (below : FitsBelow level limit rank value) (target : Ty) :
    StaysWithin limit (Edit.replaceByConditional node value target) level store
      fun later replaced => ∀ conditional ∈ replaced, HasLevel later rank conditional :=
  of_keepsLevels leveled rank fun _ agrees fresh =>
    KeepsLevels.replaceByConditional fresh inside (hasLevel.transfer agrees fresh)
      (below.transfer agrees fresh inside) target

theorem replaceByComparison
    {node value : NodeRef} (hasLevel : HasLevel level rank node)
    (below : FitsBelow level limit rank value) (kind : JvmKind) :
    StaysWithin limit (Edit.replaceByComparison node value kind) level store fun later comparison =>
      HasLevel later rank comparison :=
  of_keepsLevels leveled rank fun _ agrees fresh =>
    KeepsLevels.replaceByComparison fresh inside (hasLevel.transfer agrees fresh)
      (below.transfer agrees fresh inside) kind

/-- The operand of a cast may come in its place if it has the level of the cast. -/
theorem dropCast
    {cast operand : NodeRef} (hasLevel : HasLevel level rank cast)
    (isOperand : store.requireChild cast .expression = .ok operand)
    (sameLevel : HasLevel level rank operand) :
    StaysWithin limit (Edit.dropCast cast) level store fun later dropped =>
      HasLevel later rank dropped := by
  have run : (Edit.askOrFail (·.requireChild cast .expression)).run store =
      (.ok operand, store) := by
    rw [run_askOrFail, isOperand]
  refine bind_of_run run (of_keepsLevels leveled rank fun later agrees fresh => ?_)
  have sameLevel := sameLevel.transfer agrees fresh
  have detached : (do
      Edit.detach operand
      return operand : Edit NodeRef).KeepsLevels later store.size limit (HasLevel later rank) :=
    (KeepsLevels.detach fun id member => sameLevel id member ▸ inside).bind fun _ _ =>
      KeepsLevels.pure sameLevel
  refine (KeepsLevels.asked _).bind fun parent _ => ?_
  split
  · exact detached
  · exact KeepsLevels.replaceBy inside (hasLevel.transfer agrees fresh) detached

end Rewrites

end StaysWithin

/-- A new cast holds the node that it was put around. -/
theorem requireChild_of_wrapInCast
    (wellFormed : store.WellFormed) {node cast : NodeRef} {options : TypeSyntaxOptions} {type : Ty}
    {changed : Store}
    (run : (wrapInCast context options node type).run store = (.ok cast, changed)) :
    changed.requireChild cast .expression = .ok node := by
  cases located : store.location? node with
  | none =>
      have fails : (wrapInCast context options node type).run store =
          (.error (.detached node), store) := by
        have runAsk : (ask (·.location? node)).run store = (.ok none, store) := by
          rw [run_ask, located]
        rw [wrapInCast, replaceBy, run_bind_ok runAsk]
        rfl
      rw [fails] at run
      cases run
  | some location =>
      cases node with
      | none =>
          cases located
      | some id =>
          obtain ⟨frame, frames, value, hosted, rfl, _⟩ :=
            Branch.exists_hosted_of_place? wellFormed (location?_eq_some located).1
          obtain ⟨wrapped, _, runWrap, becomes, wraps⟩ :=
            hosted.run_wrapInCast wellFormed (Nat.zero_le _) context options type
          rw [runWrap] at run
          cases run
          obtain ⟨castFrame, rfl, isCast, isFirst⟩ := wraps.exists_frame
          exact becomes.hosted.held.requireChild_cast becomes.wellFormed isCast isFirst

end Edit

end TypedJava
