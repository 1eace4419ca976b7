import TypedJava.NeedlessCast
import TypedJava.Proofs.Edit.Structural
import TypedJava.Proofs.TypeSyntax.Written

/-! # Edits and levels

Every node is given a level that goes up by at most one from a node to its children and never goes
down. An edit that gives its new nodes the level of the node in whose place they come keeps the
levels that way, and as long as it is given nodes up to a limit, the nodes above the limit stay as
they are. -/

namespace TypedJava

namespace Store

/-- Levels fit a store if every node has the level of its parent or the next one. -/
structure Leveled (store : Store) (level : NodeId → Nat) : Prop where
  wellFormed : store.WellFormed
  near : ∀ id place, store.place? (some id) = some place →
    level place.parent ≤ level id ∧ level id ≤ level place.parent + 1

namespace Leveled

variable {store : Store} {level : NodeId → Nat}

theorem push_ofPayload (leveled : store.Leveled level) (payload : Payload) :
    (store.push (.ofPayload payload)).2.Leveled level := by
  refine ⟨leveled.wellFormed.push_ofPayload payload, fun id place placed => ?_⟩
  rw [place?_push_of_unplaced (by rfl)] at placed
  exact leveled.near id place placed

theorem annotate
    (leveled : store.Leveled level) (id : NodeId) (change : Annotations → Annotations) :
    (store.update id fun node => { node with annotations := change node.annotations }).Leveled
      level := by
  refine ⟨leveled.wellFormed.annotate id change, fun other place placed => ?_⟩
  rw [place?_update] at placed
  refine leveled.near other place ?_
  split at placed
  · exact placed
  · exact placed

theorem attach
    (leveled : store.Leveled level) {place : Place} {child : NodeId}
    (attachable : store.Attachable place child)
    (near : level place.parent ≤ level child ∧ level child ≤ level place.parent + 1)
    (position : Nat) :
    (store.attach place position child).Leveled level := by
  refine ⟨leveled.wellFormed.attach attachable position, fun id found placed => ?_⟩
  rw [place?_attach attachable.valid] at placed
  split at placed
  · rename_i same
    cases placed
    exact same ▸ near
  · exact leveled.near id found placed

theorem detach
    (leveled : store.Leveled level) {location : Location} {child : NodeId}
    (located : store.location? (some child) = some location) :
    (store.detach location child).Leveled level := by
  refine ⟨leveled.wellFormed.detach located, fun id place placed => ?_⟩
  rw [place?_detach] at placed
  split at placed
  · cases placed
  · exact leveled.near id place placed

/-- The same levels below a bound, and a rank for every node beyond it. -/
def extend (level : NodeId → Nat) (bound rank : Nat) (id : NodeId) : Nat :=
  if id < bound then level id else rank

theorem extend_of_lt {bound rank : Nat} {id : NodeId} (old : id < bound) :
    extend level bound rank id = level id :=
  if_pos old

theorem extend_of_le {bound rank : Nat} {id : NodeId} (new : bound ≤ id) :
    extend level bound rank id = rank :=
  if_neg (Nat.not_lt_of_le new)

/-- Nodes that are not there yet may be given any level. -/
theorem extended (leveled : store.Leveled level) (rank : Nat) :
    store.Leveled (extend level store.size rank) := by
  refine ⟨leveled.wellFormed, fun id place placed => ?_⟩
  rw [extend_of_lt (lt_size_of_place? placed),
    extend_of_lt (leveled.wellFormed.parent_lt_size placed)]
  exact leveled.near id place placed

end Leveled

end Store

namespace Edit

open Store

variable {α β : Type} {level : NodeId → Nat} {bound limit rank : Nat}

/-- On every store with at least so many nodes that the levels fit, the edit keeps the levels fit
and changes no node above the limit, whether or not it succeeds. Its value is as stated. -/
def KeepsLevels (level : NodeId → Nat) (bound limit : Nat) (edit : Edit α) (result : α → Prop) :
    Prop :=
  ∀ store, bound ≤ store.size → store.Leveled level →
    (edit.run store).2.Leveled level ∧
      store.Keeps (edit.run store).2 (fun id => level id ≤ limit) ∧
      ∀ value, (edit.run store).1 = .ok value → result value

/-- The node has a level. -/
def HasLevel (level : NodeId → Nat) (rank : Nat) (node : NodeRef) : Prop :=
  ∀ id ∈ node, level id = rank

/-- The node may stand below one of a level, and it may be moved. -/
def FitsBelow (level : NodeId → Nat) (limit rank : Nat) (node : NodeRef) : Prop :=
  ∀ id ∈ node, rank ≤ level id ∧ level id ≤ rank + 1 ∧ level id ≤ limit

theorem HasLevel.fitsBelow
    {node : NodeRef} (has : HasLevel level rank node) (inside : rank ≤ limit) :
    FitsBelow level limit rank node := by
  intro id member
  rw [has id member]
  exact ⟨Nat.le_refl _, Nat.le_succ _, inside⟩

theorem hasLevel_some {id : NodeId} : HasLevel level rank (some id) ↔ level id = rank := by
  simp [HasLevel]

namespace KeepsLevels

variable {edit : Edit α} {next : α → Edit β} {result weaker : α → Prop} {final : β → Prop}

theorem imp
    (keeps : edit.KeepsLevels level bound limit result)
    (implies : ∀ value, result value → weaker value) :
    edit.KeepsLevels level bound limit weaker := by
  intro store large leveled
  obtain ⟨still, kept, holds⟩ := keeps store large leveled
  exact ⟨still, kept, fun value same => implies value (holds value same)⟩

theorem pure {value : α} (holds : result value) :
    (Pure.pure value : Edit α).KeepsLevels level bound limit result := by
  intro store _ leveled
  refine ⟨leveled, .refl _ _, fun other same => ?_⟩
  cases same
  exact holds

theorem throw (error : EditError) :
    (MonadExcept.throw error : Edit α).KeepsLevels level bound limit result :=
  fun _ _ leveled => ⟨leveled, .refl _ _, fun _ impossible => nomatch impossible⟩

theorem ask
    {question : Store → α}
    (holds : ∀ store : Store, store.Leveled level → result (question store)) :
    (Edit.ask question).KeepsLevels level bound limit result := by
  intro store _ leveled
  refine ⟨leveled, .refl _ _, fun value same => ?_⟩
  cases same
  exact holds store leveled

theorem asked (question : Store → α) :
    (Edit.ask question).KeepsLevels level bound limit fun _ => True :=
  ask fun _ _ => trivial

theorem bind
    (first : edit.KeepsLevels level bound limit result)
    (second : ∀ value, result value → (next value).KeepsLevels level bound limit final) :
    (edit >>= next).KeepsLevels level bound limit final := by
  intro store large leveled
  obtain ⟨leveledFirst, keepsFirst, holds⟩ := first store large leveled
  rw [run_bind]
  cases run : edit.run store with
  | mk outcome changed =>
      rw [run] at leveledFirst keepsFirst holds
      cases outcome with
      | ok value =>
          obtain ⟨leveledSecond, keepsSecond, holdsSecond⟩ :=
            second value (holds value rfl) changed (Nat.le_trans large keepsFirst.size_le)
              leveledFirst
          exact ⟨leveledSecond, keepsFirst.trans keepsSecond fun _ _ touched => touched,
            holdsSecond⟩
      | error error =>
          exact ⟨leveledFirst, keepsFirst, fun _ impossible => nomatch impossible⟩

theorem tryCatch
    {handler : EditError → Edit α} (first : edit.KeepsLevels level bound limit result)
    (second : ∀ error, (handler error).KeepsLevels level bound limit result) :
    (MonadExcept.tryCatch edit handler).KeepsLevels level bound limit result := by
  intro store large leveled
  obtain ⟨leveledFirst, keepsFirst, holds⟩ := first store large leveled
  rw [show (MonadExcept.tryCatch edit handler).run store = _ from run_tryCatch edit handler store]
  cases run : edit.run store with
  | mk outcome changed =>
      rw [run] at leveledFirst keepsFirst holds
      cases outcome with
      | ok value =>
          exact ⟨leveledFirst, keepsFirst, holds⟩
      | error error =>
          obtain ⟨leveledSecond, keepsSecond, holdsSecond⟩ :=
            second error changed (Nat.le_trans large keepsFirst.size_le) leveledFirst
          exact ⟨leveledSecond, keepsFirst.trans keepsSecond fun _ _ touched => touched,
            holdsSecond⟩

/-! ## Single changes -/

theorem mkNode
    (fresh : ∀ id, bound ≤ id → level id = rank) (payload : Payload) :
    (Edit.mkNode payload).KeepsLevels level bound limit fun id => level id = rank := by
  intro store large leveled
  refine ⟨leveled.push_ofPayload payload, keeps_push store _ _, ?_⟩
  intro value same
  cases same
  exact fresh _ large

theorem setType {id : NodeId} (inside : level id ≤ limit) (type : Ty) :
    (Edit.setType (some id) type).KeepsLevels level bound limit fun _ => True := by
  intro store _ leveled
  refine ⟨leveled.annotate id fun annotations => { annotations with type := some type },
    (keeps_update store id _).weaken ?_, fun _ _ => trivial⟩
  rintro other _ rfl
  exact inside

theorem attachAt
    {parent child : NodeRef} (above : HasLevel level rank parent)
    (below : FitsBelow level limit rank child) (role : Role) (position : Nat) :
    (Edit.attachAt parent role position child).KeepsLevels level bound limit fun _ => True := by
  intro store _ leveled
  have stays : store.Leveled level ∧ store.Keeps store (fun id => level id ≤ limit) ∧
      ∀ value, (Except.ok () : Except EditError Unit) = .ok value → True :=
    ⟨leveled, .refl _ _, fun _ _ => trivial⟩
  rw [run_attachAt]
  split
  · exact stays
  · exact ⟨leveled, .refl _ _, fun _ _ => trivial⟩
  · rename_i child parent allowed
    obtain ⟨lower, upper, inside⟩ := below child rfl
    rw [← above parent rfl] at lower upper
    refine ⟨leveled.attach (leveled.wellFormed.attachable_of_attachError? ⟨parent, role⟩ allowed)
      ⟨lower, upper⟩ position, (keeps_attach _ _ _).weaken ?_, fun _ _ => trivial⟩
    rintro id _ (rfl | rfl)
    · exact Nat.le_trans lower inside
    · exact inside
  · exact stays

theorem detach
    {node : NodeRef} (inside : ∀ id ∈ node, level id ≤ limit) :
    (Edit.detach node).KeepsLevels level bound limit fun _ => True := by
  intro store _ leveled
  rw [run_detach]
  split
  · rename_i id location located
    obtain ⟨lower, _⟩ := leveled.near id location.place (location?_eq_some located).1
    refine ⟨leveled.detach located, (keeps_detach _ _).weaken ?_, fun _ _ => trivial⟩
    rintro other _ (rfl | rfl)
    · exact Nat.le_trans lower (inside id rfl)
    · exact inside other rfl
  · exact ⟨leveled, .refl _ _, fun _ _ => trivial⟩

theorem attachLast
    {parent child : NodeRef} (above : HasLevel level rank parent)
    (below : FitsBelow level limit rank child) (role : Role) :
    (Edit.attachLast parent role child).KeepsLevels level bound limit fun _ => True :=
  (asked _).bind fun siblings _ => attachAt above below role siblings.length

/-! ## New nodes -/

section New

variable (fresh : ∀ id, bound ≤ id → level id = rank) (inside : rank ≤ limit)

theorem attachEach
    {node : NodeId} (above : level node = rank) {children : List (Role × NodeRef)}
    (below : ∀ entry ∈ children, FitsBelow level limit rank entry.2) :
    (Edit.attachEach node children).KeepsLevels level bound limit fun _ => True := by
  induction children with
  | nil =>
      exact pure trivial
  | cons entry rest inductionHypothesis =>
      rw [Edit.attachEach]
      refine (attachLast (hasLevel_some.mpr above) (below entry List.mem_cons_self) _).bind ?_
      exact fun _ _ => inductionHypothesis fun other member =>
        below other (List.mem_cons_of_mem _ member)

include fresh

theorem mkNodeWith
    (payload : Payload) {children : List (Role × NodeRef)}
    (below : ∀ entry ∈ children, FitsBelow level limit rank entry.2) :
    (Edit.mkNodeWith payload children).KeepsLevels level bound limit fun id => level id = rank := by
  rw [Edit.mkNodeWith_eq]
  exact (mkNode fresh payload).bind fun node above =>
    (attachEach above below).bind fun _ _ => pure above

include inside

theorem attachToken
    {node : NodeId} (above : level node = rank) (role : Role) (text : String) :
    (Edit.attachToken node role text).KeepsLevels level bound limit fun _ => True :=
  (mkNode fresh (.token text)).bind fun _ isNew =>
    attachLast (hasLevel_some.mpr above) ((hasLevel_some.mpr isNew).fitsBelow inside) role

theorem mkCast
    {type operand : NodeRef} (typeFits : FitsBelow level limit rank type)
    (operandFits : FitsBelow level limit rank operand) :
    (Edit.mkCast type operand).KeepsLevels level bound limit fun id => level id = rank := by
  refine (mkNodeWith fresh .cast ?_).bind fun node above => ?_
  · intro entry member
    simp only [List.mem_cons, List.not_mem_nil, or_false] at member
    rcases member with rfl | rfl
    · exact typeFits
    · exact operandFits
  · have tokens : (attachTokens node [.leftParenthesis, .rightParenthesis]).KeepsLevels level bound
        limit fun _ => True := by
      rw [attachTokens_cons node rfl, attachTokens_cons node rfl]
      exact (attachToken fresh inside above _ _).bind fun _ _ =>
        (attachToken fresh inside above _ _).bind fun _ _ => pure trivial
    exact tokens.bind fun _ _ => pure above

theorem mkNamedType
    (name : String) {arguments : List NodeRef}
    (below : ∀ argument ∈ arguments, HasLevel level rank argument) :
    (Edit.mkNamedType name arguments).KeepsLevels level bound limit fun id => level id = rank := by
  refine (mkNode fresh _).bind fun node above => ?_
  rw [attachAll_eq]
  refine (attachEach above ?_).bind fun _ _ => pure above
  intro entry member
  obtain ⟨argument, isArgument, rfl⟩ := List.mem_map.mp member
  exact (below argument isArgument).fitsBelow inside

theorem finishType
    {node : NodeId} (isNew : level node = rank) (type : Ty) (dimensions : Nat) :
    (Edit.finishType type dimensions node).KeepsLevels level bound limit fun id =>
      level id = rank := by
  rw [Edit.finishType]
  refine (setType (isNew ▸ inside) type).bind fun _ _ => ?_
  split
  · exact pure isNew
  · refine (mkNodeWith fresh _ ?_).bind fun composed isComposed => ?_
    · intro entry member
      cases List.mem_singleton.mp member
      exact (hasLevel_some.mpr isNew).fitsBelow inside
    · exact (setType (isComposed ▸ inside) _).bind fun _ _ => pure isComposed

theorem mkWildcard
    (form : WildcardForm) {written : NodeRef} (isNew : HasLevel level rank written) :
    (Edit.mkWildcard form written).KeepsLevels level bound limit fun id => level id = rank := by
  refine mkNodeWith fresh _ fun entry member => ?_
  cases List.mem_singleton.mp member
  exact isNew.fitsBelow inside

end New

mutual

theorem mkTypeWithin
    (fresh : ∀ id, bound ≤ id → level id = rank) (inside : rank ≤ limit) (catalog : Catalog) :
    (type : Ty) → (dimensions : Nat) →
      (Edit.mkTypeWithin catalog type dimensions).KeepsLevels level bound limit fun id =>
        level id = rank
  | .array element, dimensions => by
      rw [Edit.mkTypeWithin]
      exact mkTypeWithin fresh inside catalog element (dimensions + 1)
  | .primitive kind, dimensions => by
      rw [Edit.mkTypeWithin]
      exact (mkNamedType fresh inside _ (by simp)).bind fun _ isNew =>
        finishType fresh inside isNew _ _
  | .typeVariable id bound, dimensions => by
      rw [Edit.mkTypeWithin]
      exact (mkNamedType fresh inside _ (by simp)).bind fun _ isNew =>
        finishType fresh inside isNew _ _
  | .null, dimensions => by
      rw [Edit.mkTypeWithin]
      exact (mkNamedType fresh inside _ (by simp)).bind fun _ isNew =>
        finishType fresh inside isNew _ _
  | .unboundedWildcard, dimensions => by
      rw [Edit.mkTypeWithin]
      exact (mkWildcard fresh inside _ (by simp [HasLevel])).bind fun _ isNew =>
        finishType fresh inside isNew _ _
  | .classType definition arguments, dimensions => by
      rw [Edit.mkTypeWithin]
      exact (mkTypes fresh inside catalog arguments).bind fun written areNew =>
        (mkNamedType fresh inside _ areNew).bind fun _ isNew => finishType fresh inside isNew _ _
  | .upperWildcard upper, dimensions => by
      rw [Edit.mkTypeWithin]
      exact (mkTypeWithin fresh inside catalog upper 0).bind fun written isNew =>
        (mkWildcard fresh inside _ (hasLevel_some.mpr isNew)).bind fun _ isNew =>
          finishType fresh inside isNew _ _
  | .lowerWildcard lower, dimensions => by
      rw [Edit.mkTypeWithin]
      exact (mkTypeWithin fresh inside catalog lower 0).bind fun written isNew =>
        (mkWildcard fresh inside _ (hasLevel_some.mpr isNew)).bind fun _ isNew =>
          finishType fresh inside isNew _ _

theorem mkTypes
    (fresh : ∀ id, bound ≤ id → level id = rank) (inside : rank ≤ limit) (catalog : Catalog) :
    (types : List Ty) →
      (Edit.mkTypes catalog types).KeepsLevels level bound limit fun written =>
        ∀ node ∈ written, HasLevel level rank node
  | [] => by
      rw [Edit.mkTypes]
      exact pure (by simp)
  | type :: types => by
      rw [Edit.mkTypes]
      refine (mkTypeWithin fresh inside catalog type 0).bind fun first isNew => ?_
      refine (mkTypes fresh inside catalog types).bind fun rest areNew => pure fun node member => ?_
      rcases List.mem_cons.mp member with rfl | later
      · exact hasLevel_some.mpr isNew
      · exact areNew node later

end

/-! ## Replacing a node -/

/-- What comes in the place of a node may be anything of the same level. -/
theorem replaceBy
    (inside : rank ≤ limit) {node : NodeRef} (hasLevel : HasLevel level rank node)
    {factory : NodeRef → Edit NodeRef}
    (makes : (factory node).KeepsLevels level bound limit (HasLevel level rank)) :
    (Edit.replaceBy node factory).KeepsLevels level bound limit (HasLevel level rank) := by
  have located : (Edit.ask (·.location? node)).KeepsLevels level bound limit fun found =>
      ∀ location ∈ found, level location.place.parent ≤ rank ∧
        rank ≤ level location.place.parent + 1 := by
    refine ask fun store leveled location found => ?_
    cases node with
    | none =>
        cases found
    | some id =>
        rw [← hasLevel id rfl]
        exact leveled.near id _ (location?_eq_some found).1
  refine located.bind fun found near => ?_
  cases found with
  | none =>
      exact throw _
  | some location =>
      obtain ⟨lower, upper⟩ := near location rfl
      have attached {other : NodeRef} (same : HasLevel level rank other) :
          (Edit.attachAt (some location.place.parent) location.place.role location.position
            other).KeepsLevels level bound limit fun _ => True := by
        refine attachAt (hasLevel_some.mpr rfl) (fun id isOther => ?_) _ _
        rw [same id isOther]
        exact ⟨lower, upper, inside⟩
      have movable : ∀ id ∈ node, level id ≤ limit := fun id isNode => hasLevel id isNode ▸ inside
      refine (detach movable).bind fun _ _ => (makes.tryCatch fun error => ?_).bind
        fun replacement same => (attached same).bind fun _ _ => pure same
      refine (asked _).bind fun parent _ => ?_
      split
      · exact (attached hasLevel).bind fun _ _ => throw error
      · exact throw error

end KeepsLevels

end Edit

end TypedJava
