import TypedJava.Proofs.Branch.Replace
import TypedJava.Store.Build

/-! # Building branches

A builder adds a node and attaches detached branches to it. The new branch lists them role by role,
whatever the order in which they were attached. -/

namespace TypedJava

namespace Branch

/-- Children in the order of the roles of a kind. -/
def arrange (kind : NodeKind) (children : List (Role × Branch)) : List (Role × Branch) :=
  kind.roles.flatMap fun role => children.filter fun entry => entry.1 = role

/-- A node without annotations over some children. -/
def assemble (id : NodeId) (payload : Payload) (children : List (Role × Branch)) : Branch :=
  .node id payload .empty (arrange payload.kind children)

@[simp]
theorem id_assemble (id : NodeId) (payload : Payload) (children : List (Role × Branch)) :
    (assemble id payload children).id = id :=
  rfl

theorem mem_arrange
    {kind : NodeKind} {children : List (Role × Branch)} {entry : Role × Branch} :
    entry ∈ arrange kind children ↔ entry.1 ∈ kind.roles ∧ entry ∈ children := by
  simp only [arrange, List.mem_flatMap, List.mem_filter, decide_eq_true_eq]
  constructor
  · rintro ⟨role, isRole, member, rfl⟩
    exact ⟨isRole, member⟩
  · rintro ⟨isRole, member⟩
    exact ⟨entry.1, isRole, member, rfl⟩

/-- Arranging children changes no role. -/
theorem filter_arrange
    {kind : NodeKind} {role : Role} (isRole : role ∈ kind.roles) (children : List (Role × Branch)) :
    (arrange kind children).filter (fun entry => entry.1 = role) =
      children.filter fun entry => entry.1 = role := by
  have general : ∀ roles : List Role, roles.Nodup →
      ((roles.flatMap fun other => children.filter fun entry => entry.1 = other).filter
        fun entry => entry.1 = role) =
      if role ∈ roles then children.filter fun entry => entry.1 = role else [] := by
    intro roles nodup
    induction roles with
    | nil =>
        rfl
    | cons first rest inductionHypothesis =>
        rw [List.nodup_cons] at nodup
        rw [List.flatMap_cons, List.filter_append, inductionHypothesis nodup.2,
          List.filter_filter]
        by_cases same : role = first
        · subst same
          simp [nodup.1]
        · have none : children.filter
              (fun entry => decide (entry.1 = role) && decide (entry.1 = first)) = [] := by
            rw [List.filter_eq_nil_iff]
            intro entry _ both
            simp only [Bool.and_eq_true, decide_eq_true_eq] at both
            exact same (both.1.symm.trans both.2)
          simp [none, same]
  rw [arrange, general _ kind.roles_nodup, if_pos isRole]

theorem mem_ids_assemble
    {id found : NodeId} {payload : Payload} {children : List (Role × Branch)}
    (member : found ∈ (assemble id payload children).ids) :
    found = id ∨ found ∈ idsOfAll children := by
  rw [ids_eq_cons] at member
  rcases List.mem_cons.mp member with same | deeper
  · exact Or.inl same
  · obtain ⟨entry, isChild, inChild⟩ := mem_idsOfAll.mp deeper
    exact Or.inr (mem_idsOfAll.mpr ⟨entry, (mem_arrange.mp isChild).2, inChild⟩)

variable {store changed : Store}

/-- A hosted branch stays hosted by a store that keeps its nodes and those around it. -/
theorem Hosted.of_keeps
    {frames : List Frame} {branch : Branch} (hosted : Hosted store frames branch)
    {touched : NodeId → Prop} (keeps : store.Keeps changed touched)
    (untouched : ∀ id ∈ (within frames branch).ids, ¬ touched id) :
    Hosted changed frames branch := by
  refine ⟨hosted.whole.of_keeps keeps untouched, ?_⟩
  have top := id_mem_ids (within frames branch)
  rw [keeps.place?_eq (hosted.whole.lt_size top) (untouched _ top)]
  exact hosted.unplaced

/-- A branch made of new nodes alone leaves every other branch where it was. -/
theorem Becomes.hosted_other
    {new branch : Branch} {frames : List Frame} (becomes : Becomes store [] [] new changed)
    (hosted : Hosted store frames branch) :
    Hosted changed frames branch :=
  hosted.of_keeps becomes.keeps fun id _ => by simp

/-- A detached branch holds no other detached node. -/
theorem Hosted.not_mem_of_unplaced
    {branch : Branch} (hosted : Hosted store [] branch) (wellFormed : store.WellFormed)
    {id : NodeId} (unplaced : store.place? (some id) = none) (different : id ≠ branch.id) :
    id ∉ branch.ids := by
  intro member
  have above := (hosted.held.mem_ids_iff wellFormed).mp member
  exact different (above.eq_of_place?_none unplaced).symm

/-! ## Adding a node -/

theorem becomes_push (wellFormed : store.WellFormed) (payload : Payload) :
    Becomes store [] [] (assemble store.size payload [])
      (store.push (.ofPayload payload)).2 := by
  have noChildren : arrange payload.kind [] = [] := by simp [arrange]
  have found : (store.push (.ofPayload payload)).2.node? (some store.size) =
      some (.ofPayload payload) := by
    rw [Store.node?_push, if_pos rfl]
  refine ⟨wellFormed.push_ofPayload payload, ⟨?_, ?_⟩, ?_, fun id member => ?_, fun id bound => ?_⟩
  · rw [within, assemble, noChildren]
    refine .node ?_ fun entry member => absurd member List.not_mem_nil
    rw [Store.content?, found, Option.map_some]
    simp [Node.ofPayload, Node.listing, entries, List.flatMap_map]
  · rw [within, id_assemble, Store.place?_of_node? found]
    rfl
  · exact Store.keeps_push store _ _
  · refine Or.inr (Nat.le_of_eq ?_)
    rcases mem_ids_assemble member with same | inside
    · exact same.symm
    · exact absurd inside List.not_mem_nil
  · rw [Store.label?_push, if_neg (Nat.ne_of_lt bound)]

/-! ## Attaching a detached branch -/

section Attach

variable {parent : NodeId} {payload : Payload} {children : List (Role × Branch)}
  {role : Role} {child : Branch}

private theorem attachable_assemble
    (wellFormed : store.WellFormed)
    (hosted : Hosted store [] (assemble parent payload children))
    (childHosted : Hosted store [] child) (different : child.id ≠ parent)
    (isRole : role ∈ payload.kind.roles)
    (room : role.holdsMany = false → children.filter (fun entry => entry.1 = role) = []) :
    store.Attachable ⟨parent, role⟩ child.id := by
  obtain ⟨node, found, samePayload, _, _⟩ := hosted.held.exists_node
  refine ⟨childHosted.held.id_lt_size, childHosted.place?_eq_none, ⟨node, found, ?_⟩, ?_, ?_⟩
  · rw [wellFormed.slots_match _ _ found, Node.kind, samePayload]
    exact isRole
  · intro above
    exact different (above.eq_of_place?_none hosted.place?_eq_none)
  · intro single
    have listed := hosted.held.childrenIn_eq wellFormed role
    have arranged : (assemble parent payload children).children =
        arrange payload.kind children := rfl
    rw [arranged, filter_arrange isRole, room single] at listed
    exact listed

/-- After an attachment the parent lists one more child, at the end of its role. -/
private theorem content?_attach_assemble
    (wellFormed : store.WellFormed)
    (hosted : Hosted store [] (assemble parent payload children))
    (attachable : store.Attachable ⟨parent, role⟩ child.id) (different : child.id ≠ parent)
    (isRole : role ∈ payload.kind.roles) :
    (store.attach ⟨parent, role⟩ (store.childrenIn (some parent) role).length child.id).content?
        parent =
      some (payload, .empty, entries (arrange payload.kind (children ++ [(role, child)]))) := by
  obtain ⟨node, found, samePayload, sameAnnotations, _⟩ := hosted.held.exists_node
  have sameKind : node.kind = payload.kind := by
    rw [Node.kind, samePayload]
    rfl
  have present : role ∈ node.slots.map (·.role) := by
    rw [wellFormed.slots_match _ _ found, sameKind]
    exact isRole
  generalize sameLength : (store.childrenIn (some parent) role).length = position
  have attached := wellFormed.attach attachable position
  have foundLater : (store.attach ⟨parent, role⟩ position child.id).node? (some parent) =
      some (node.updateSlot role (Store.insertAt position child.id)) :=
    Store.node?_attach_parent found different.symm position
  have lists (other : Role) (isOther : other ∈ payload.kind.roles) :
      (store.attach ⟨parent, role⟩ position child.id).childrenIn (some parent) other =
        ((children ++ [(role, child)]).filter fun entry => entry.1 = other).map fun entry =>
          entry.2.id := by
    have before := hosted.held.childrenIn_eq wellFormed other
    have arranged : (assemble parent payload children).children =
        arrange payload.kind children := rfl
    rw [arranged, filter_arrange isOther, id_assemble] at before
    rw [Store.childrenIn_attach found present, List.filter_append, List.map_append, before]
    by_cases same : other = role
    · subst same
      rw [if_pos ⟨rfl, rfl⟩, ← before, ← sameLength, Store.insertAt_length]
      simp
    · rw [if_neg fun here => same here.2]
      simp [Ne.symm same]
  have listing := attached.listing_eq_flatMap foundLater
  rw [Store.content?, foundLater, Option.map_some, listing, Node.payload_updateSlot,
    Node.annotations_updateSlot, samePayload, sameAnnotations, Node.kind, Node.payload_updateSlot,
    samePayload]
  simp only [assemble, Branch.payload, Branch.annotations, Option.some.injEq, Prod.mk.injEq,
    true_and]
  rw [arrange, entries, List.map_flatMap]
  apply List.flatMap_congr
  intro other isOther
  rw [lists other isOther, List.map_map]
  apply List.map_congr_left
  intro entry member
  have sameRole : entry.1 = other := by simpa using (List.mem_filter.mp member).2
  simp [sameRole]

theorem Hosted.run_attachLast
    (wellFormed : store.WellFormed)
    (hosted : Hosted store [] (assemble parent payload children))
    (childHosted : Hosted store [] child) (different : child.id ≠ parent)
    (isRole : role ∈ payload.kind.roles)
    (room : role.holdsMany = false → children.filter (fun entry => entry.1 = role) = []) :
    ∃ changed, (Edit.attachLast (some parent) role (some child.id)).run store = (.ok (), changed) ∧
      Becomes store (parent :: (idsOfAll children ++ child.ids)) []
        (assemble parent payload (children ++ [(role, child)])) changed ∧
      store.Keeps changed (fun id => id = parent ∨ id = child.id) := by
  have attachable := attachable_assemble wellFormed hosted childHosted different isRole room
  have allowed : store.attachError? (some parent) role (some child.id) = none :=
    wellFormed.attachError?_eq_none attachable
  generalize samePosition : (store.childrenIn (some parent) role).length = position
  have content := content?_attach_assemble wellFormed hosted attachable different isRole
  rw [samePosition] at content
  refine ⟨store.attach ⟨parent, role⟩ position child.id, ?_, ⟨?_, ⟨?_, ?_⟩, ?_, ?_, ?_⟩, ?_⟩
  · rw [Edit.run_attachLast_ok allowed, samePosition]
  · exact wellFormed.attach attachable position
  · refine .node content fun entry member => ?_
    have held : entry.2.HeldIn store ∧ parent ∉ entry.2.ids := by
      obtain ⟨isRole, listed⟩ := mem_arrange.mp member
      rcases List.mem_append.mp listed with earlier | last
      · have isChild : entry ∈ (assemble parent payload children).children :=
          mem_arrange.mpr ⟨isRole, earlier⟩
        refine ⟨hosted.held.of_mem_children isChild, fun inChild => ?_⟩
        have nodup := hosted.held.ids_nodup wellFormed
        rw [ids_eq_cons, List.nodup_cons] at nodup
        exact nodup.1 (mem_idsOfAll.mpr ⟨entry, isChild, inChild⟩)
      · cases List.mem_singleton.mp last
        exact ⟨childHosted.held,
          childHosted.not_mem_of_unplaced wellFormed hosted.place?_eq_none different.symm⟩
    refine held.1.of_content_eq fun id inChild => Store.content?_attach_of_ne ?_ position
    rintro rfl
    exact held.2 inChild
  · rw [within, id_assemble, Store.place?_attach attachable.valid, if_neg different.symm]
    exact hosted.place?_eq_none
  · refine (Store.keeps_attach _ _ _).weaken fun id _ touched => Or.inl ?_
    rcases touched with rfl | rfl
    · exact List.mem_cons_self
    · exact List.mem_cons_of_mem _ (List.mem_append_right _ (id_mem_ids child))
  · intro id member
    refine Or.inl ?_
    rcases mem_ids_assemble member with rfl | inside
    · exact List.mem_cons_self
    · rw [idsOfAll_append] at inside
      simpa [idsOfAll] using Or.inr inside
  · exact fun id _ => Store.label?_attach store _ _ _ _
  · exact Store.keeps_attach _ _ _

end Attach

end Branch

/-! ## Attaching several branches -/

namespace Edit

/-- Attaches children one after the other. -/
def attachEach (parent : NodeId) : List (Role × NodeRef) → Edit Unit
  | [] => pure ()
  | (role, child) :: rest => do
    attachLast (some parent) role child
    attachEach parent rest

theorem mkNodeWith_eq (payload : Payload) (children : List (Role × NodeRef)) :
    mkNodeWith payload children = do
      let node ← mkNode payload
      attachEach node children
      return node := by
  rw [mkNodeWith]
  congr 1
  funext node
  refine congrArg (fun run : Edit Unit => do
    run
    return node) ?_
  induction children with
  | nil =>
      rfl
  | cons entry rest inductionHypothesis =>
      rw [attachEach, ← inductionHypothesis, List.forIn_cons]
      simp only [bind_assoc, pure_bind]

theorem attachAll_eq (node : NodeId) (role : Role) (children : List NodeRef) :
    attachAll node role children = attachEach node (children.map fun child => (role, child)) := by
  induction children with
  | nil =>
      rfl
  | cons child rest inductionHypothesis =>
      rw [List.map_cons, attachEach, ← inductionHypothesis, attachAll, List.forIn_cons]
      simp only [bind_assoc, pure_bind, attachAll]

/-- Adds a token in a role. -/
def attachToken (parent : NodeId) (role : Role) (text : String) : Edit Unit := do
  let token ← mkNode (.token text)
  attachLast (some parent) role (some token)

theorem attachTokens_cons
    (parent : NodeId) {role : Role} {text : String} (isToken : role.punctuation? = some text)
    (rest : List Role) :
    attachTokens parent (role :: rest) =
      (do
        attachToken parent role text
        attachTokens parent rest) := by
  simp only [attachTokens, attachToken, List.forIn_cons, isToken, bind_assoc, pure_bind]

end Edit

namespace Branch

variable {store : Store}

theorem Hosted.run_attachEach
    (wellFormed : store.WellFormed) {parent : NodeId} {payload : Payload}
    {children : List (Role × Branch)}
    (hosted : Hosted store [] (assemble parent payload children)) (pieces : List (Role × Branch))
    (piecesHosted : ∀ piece ∈ pieces, Hosted store [] piece.2)
    (distinct : (parent :: pieces.map fun piece => piece.2.id).Nodup)
    (haveRoles : ∀ piece ∈ pieces, piece.1 ∈ payload.kind.roles)
    (room : ∀ role, role.holdsMany = false →
      ((children ++ pieces).filter fun entry => entry.1 = role).length ≤ 1) :
    ∃ changed,
      (Edit.attachEach parent (pieces.map fun piece => (piece.1, some piece.2.id))).run store =
        (.ok (), changed) ∧
      Becomes store (parent :: (idsOfAll children ++ idsOfAll pieces)) []
        (assemble parent payload (children ++ pieces)) changed ∧
      store.Keeps changed
        (fun id => id = parent ∨ id ∈ pieces.map fun piece => piece.2.id) := by
  induction pieces generalizing store children with
  | nil =>
      rw [List.append_nil]
      refine ⟨store, rfl, (Becomes.refl wellFormed hosted).mono fun id member => ?_, .refl _ _⟩
      rcases mem_ids_assemble member with rfl | inside
      · exact List.mem_cons_self
      · exact List.mem_cons_of_mem _ (List.mem_append_left _ inside)
  | cons piece pieces inductionHypothesis =>
      obtain ⟨role, child⟩ := piece
      have childHosted := piecesHosted _ List.mem_cons_self
      rw [List.map_cons, List.nodup_cons, List.nodup_cons] at distinct
      obtain ⟨notParent, notLater, laterDistinct⟩ := distinct
      rw [List.mem_cons, not_or] at notParent
      have free : role.holdsMany = false →
          children.filter (fun entry => entry.1 = role) = [] := by
        intro single
        have short := room role single
        simp only [List.filter_append, List.length_append] at short
        rw [List.filter_cons_of_pos (by simp), List.length_cons] at short
        exact List.eq_nil_of_length_eq_zero (by omega)
      obtain ⟨middle, runFirst, becomesFirst, keepsFirst⟩ := hosted.run_attachLast wellFormed
        childHosted (Ne.symm notParent.1) (haveRoles _ List.mem_cons_self) free
      have laterHosted : ∀ later ∈ pieces, Hosted middle [] later.2 := by
        intro later member
        have laterHosted := piecesHosted later (List.mem_cons_of_mem _ member)
        have laterTop : later.2.id ∈ pieces.map fun piece => piece.2.id := List.mem_map_of_mem member
        refine laterHosted.of_keeps keepsFirst fun id inside => ?_
        rintro (rfl | rfl)
        · refine laterHosted.not_mem_of_unplaced wellFormed hosted.place?_eq_none ?_ inside
          intro same
          rw [id_assemble] at same
          exact notParent.2 (same ▸ laterTop)
        · refine laterHosted.not_mem_of_unplaced wellFormed childHosted.place?_eq_none ?_ inside
          exact fun same => notLater (same ▸ laterTop)
      obtain ⟨changed, runRest, becomesRest, keepsRest⟩ := inductionHypothesis
        becomesFirst.wellFormed becomesFirst.hosted laterHosted
        (List.nodup_cons.mpr ⟨notParent.2, laterDistinct⟩)
        (fun later member => haveRoles later (List.mem_cons_of_mem _ member))
        (fun role single => by simpa using room role single)
      refine ⟨changed, ?_, ?_, ?_⟩
      · rw [List.map_cons, Edit.attachEach, Edit.run_bind_ok runFirst, runRest]
      · rw [List.append_assoc] at becomesRest
        refine (becomesFirst.mono fun id member => ?_).trans_of_source becomesRest
          fun id member => Or.inl ?_
        · simp only [List.mem_cons, List.mem_append, idsOfAll] at member ⊢
          tauto
        · simp only [List.mem_cons, List.mem_append, idsOfAll_append, idsOfAll] at member ⊢
          simpa [or_assoc] using member
      · refine (keepsFirst.weaken fun id _ touched => ?_).trans keepsRest fun id _ touched => ?_
        · rw [List.map_cons, List.mem_cons]
          exact touched.imp_right Or.inl
        · rw [List.map_cons, List.mem_cons]
          exact touched.imp_right Or.inr

/-- A new node over detached branches. -/
theorem run_mkNodeWith
    (wellFormed : store.WellFormed) (payload : Payload) (pieces : List (Role × Branch))
    (piecesHosted : ∀ piece ∈ pieces, Hosted store [] piece.2)
    (distinct : (pieces.map fun piece => piece.2.id).Nodup)
    (haveRoles : ∀ piece ∈ pieces, piece.1 ∈ payload.kind.roles)
    (room : ∀ role, role.holdsMany = false →
      (pieces.filter fun entry => entry.1 = role).length ≤ 1) :
    ∃ changed,
      (Edit.mkNodeWith payload (pieces.map fun piece => (piece.1, some piece.2.id))).run store =
        (.ok store.size, changed) ∧
      Becomes store (idsOfAll pieces) [] (assemble store.size payload pieces) changed := by
  have pushed := becomes_push wellFormed payload
  have stillHosted : ∀ piece ∈ pieces, Hosted (store.push (.ofPayload payload)).2 [] piece.2 := by
    intro piece member
    exact pushed.hosted_other (piecesHosted piece member)
  have newTop : store.size ∉ pieces.map fun piece => piece.2.id := by
    intro member
    obtain ⟨piece, isPiece, same⟩ := List.mem_map.mp member
    exact absurd same (Nat.ne_of_lt (piecesHosted piece isPiece).held.id_lt_size)
  obtain ⟨changed, run, becomes, _⟩ := pushed.hosted.run_attachEach pushed.wellFormed pieces
    stillHosted (List.nodup_cons.mpr ⟨newTop, distinct⟩) haveRoles (by simpa using room)
  refine ⟨changed, ?_, ?_⟩
  · rw [Edit.mkNodeWith_eq, Edit.run_bind_ok (Edit.run_mkNode payload store),
      Edit.run_bind_ok run, Edit.run_pure]
  · rw [List.nil_append, idsOfAll, List.nil_append] at becomes
    refine (pushed.mono fun id member => absurd member List.not_mem_nil).trans_of_source becomes ?_
    intro id member
    rcases List.mem_cons.mp member with rfl | inside
    · exact Or.inr (Nat.le_refl _)
    · exact Or.inl inside

/-! ## Punctuation -/

/-- A new token with a text. -/
inductive IsToken (bound : Nat) (text : String) : Branch → Prop
  | mk {id : NodeId} : bound ≤ id → IsToken bound text (.node id (.token text) .empty [])

theorem IsToken.mono
    {bound smaller : Nat} {text : String} {branch : Branch} (isToken : IsToken bound text branch)
    (le : smaller ≤ bound) :
    IsToken smaller text branch := by
  cases isToken with
  | mk new =>
      exact .mk (Nat.le_trans le new)

theorem IsToken.le_of_mem_ids
    {bound : Nat} {text : String} {branch : Branch} (isToken : IsToken bound text branch)
    {id : NodeId} (member : id ∈ branch.ids) :
    bound ≤ id := by
  cases isToken with
  | mk new =>
      rcases List.mem_cons.mp member with rfl | inside
      · exact new
      · exact absurd inside List.not_mem_nil

theorem Hosted.run_attachToken
    (wellFormed : store.WellFormed) {parent : NodeId} {payload : Payload}
    {children : List (Role × Branch)}
    (hosted : Hosted store [] (assemble parent payload children)) (role : Role) (text : String)
    (isRole : role ∈ payload.kind.roles)
    (room : children.filter (fun entry => entry.1 = role) = []) :
    ∃ token changed,
      (Edit.attachToken parent role text).run store = (.ok (), changed) ∧
      Becomes store (parent :: idsOfAll children) []
        (assemble parent payload (children ++ [(role, token)])) changed ∧
      IsToken store.size text token := by
  have pushed := becomes_push wellFormed (.token text)
  have stillHosted : Hosted (store.push (.ofPayload (.token text))).2 []
      (assemble parent payload children) :=
    pushed.hosted_other hosted
  have different : store.size ≠ parent := Nat.ne_of_gt hosted.held.id_lt_size
  obtain ⟨changed, run, becomes, _⟩ := stillHosted.run_attachLast pushed.wellFormed pushed.hosted
    different isRole fun _ => room
  refine ⟨assemble store.size (.token text) [], changed, ?_, ?_, .mk (Nat.le_refl _)⟩
  · rw [Edit.attachToken, Edit.run_bind_ok (Edit.run_mkNode _ store)]
    exact run
  · refine (pushed.mono fun id member => absurd member List.not_mem_nil).trans_of_source becomes ?_
    intro id member
    rcases List.mem_cons.mp member with rfl | inside
    · exact Or.inl List.mem_cons_self
    · rcases List.mem_append.mp inside with inChildren | inToken
      · exact Or.inl (List.mem_cons_of_mem _ inChildren)
      · exact Or.inr ((pushed.fresh id inToken).resolve_left List.not_mem_nil)

/-! ## Expressions -/

/-- A new cast of an operand to a written type. -/
inductive IsCastOf (bound : Nat) (written operand : Branch) : Branch → Prop
  | mk {id : NodeId} {left right : Branch} :
      bound ≤ id → IsToken bound "(" left → IsToken bound ")" right →
      IsCastOf bound written operand
        (.node id .cast .empty [(.leftParenthesis, left), (.type, written),
          (.rightParenthesis, right), (.expression, operand)])

theorem run_mkCast
    (wellFormed : store.WellFormed) {written operand : Branch}
    (writtenHosted : Hosted store [] written) (operandHosted : Hosted store [] operand)
    (different : written.id ≠ operand.id) :
    ∃ cast changed,
      (Edit.mkCast (some written.id) (some operand.id)).run store = (.ok cast.id, changed) ∧
      Becomes store (written.ids ++ operand.ids) [] cast changed ∧
      IsCastOf store.size written operand cast := by
  have single : ∀ role : Role, role.holdsMany = false →
      (([(.type, written), (.expression, operand)] : List (Role × Branch)).filter
        fun entry => entry.1 = role).length ≤ 1 := by
    intro role _
    cases role <;> simp
  obtain ⟨first, runNode, becomesNode⟩ := run_mkNodeWith wellFormed .cast
    [(.type, written), (.expression, operand)] (by simp [writtenHosted, operandHosted])
    (by simpa using different) (by simp [Payload.kind, NodeKind.roles]) single
  obtain ⟨left, second, runLeft, becomesLeft, isLeft⟩ :=
    becomesNode.hosted.run_attachToken becomesNode.wellFormed .leftParenthesis "("
      (by simp [Payload.kind, NodeKind.roles]) (by simp)
  obtain ⟨right, third, runRight, becomesRight, isRight⟩ :=
    becomesLeft.hosted.run_attachToken becomesLeft.wellFormed .rightParenthesis ")"
      (by simp [Payload.kind, NodeKind.roles]) (by simp)
  have runTokens : (Edit.attachTokens store.size [.leftParenthesis, .rightParenthesis]).run first =
      (.ok (), third) := by
    rw [Edit.attachTokens_cons store.size rfl, Edit.run_bind_ok runLeft,
      Edit.attachTokens_cons store.size rfl, Edit.run_bind_ok runRight]
    rfl
  have isLeft := isLeft.mono becomesNode.keeps.size_le
  have isRight := isRight.mono (Nat.le_trans becomesNode.keeps.size_le becomesLeft.keeps.size_le)
  have withLeft := becomesNode.trans_of_source becomesLeft fun id member => by
    rcases List.mem_cons.mp member with rfl | inside
    · exact Or.inr (Nat.le_refl _)
    · exact Or.inl inside
  have withRight := withLeft.trans_of_source becomesRight fun id member => by
    rcases List.mem_cons.mp member with rfl | inside
    · exact Or.inr (Nat.le_refl _)
    · rw [idsOfAll_append] at inside
      rcases List.mem_append.mp inside with inside | inLeft
      · exact Or.inl inside
      · rw [idsOfAll, idsOfAll, List.append_nil] at inLeft
        exact Or.inr (isLeft.le_of_mem_ids inLeft)
  refine ⟨_, third, ?_, withRight.mono ?_, .mk (Nat.le_refl _) isLeft isRight⟩
  · have runNode : (Edit.mkNodeWith .cast [(.type, some written.id),
        (.expression, some operand.id)]).run store = (.ok store.size, first) := runNode
    rw [Edit.mkCast, Edit.run_bind_ok runNode, Edit.run_bind_ok runTokens]
    rfl
  · intro id member
    simpa [idsOfAll] using member

/-- A new literal. -/
inductive IsLiteral (bound : Nat) (value : Literal) : Branch → Prop
  | mk {id : NodeId} : bound ≤ id → IsLiteral bound value (.node id (.literal value) .empty [])

theorem run_mkLiteral (wellFormed : store.WellFormed) (value : Literal) :
    ∃ literal changed, (Edit.mkLiteral value).run store = (.ok literal.id, changed) ∧
      Becomes store [] [] literal changed ∧ IsLiteral store.size value literal :=
  ⟨assemble store.size (.literal value) [], _, Edit.run_mkNode _ store,
    becomes_push wellFormed (.literal value), .mk (Nat.le_refl _)⟩

/-- A new conditional between two new literals. -/
inductive IsConditionalOf (bound : Nat) (whenTrue whenFalse : Literal) (condition : Branch) :
    Branch → Prop
  | mk {id : NodeId} {first second : Branch} :
      bound ≤ id → IsLiteral bound whenTrue first → IsLiteral bound whenFalse second →
      IsConditionalOf bound whenTrue whenFalse condition
        (.node id .conditional .empty [(.condition, condition), (.trueExpression, first),
          (.falseExpression, second)])

/-- A new comparison with a new literal. -/
inductive IsComparisonOf (bound : Nat) (value : Literal) (operand : Branch) : Branch → Prop
  | mk {id : NodeId} {literal : Branch} :
      bound ≤ id → IsLiteral bound value literal →
      IsComparisonOf bound value operand
        (.node id (.binary .inequality) .empty [(.left, operand), (.right, literal)])

theorem IsLiteral.le_id
    {bound : Nat} {value : Literal} {branch : Branch} (isLiteral : IsLiteral bound value branch) :
    bound ≤ branch.id := by
  cases isLiteral with
  | mk new =>
      exact new

theorem IsLiteral.mono
    {bound smaller : Nat} {value : Literal} {branch : Branch}
    (isLiteral : IsLiteral bound value branch) (le : smaller ≤ bound) :
    IsLiteral smaller value branch := by
  cases isLiteral with
  | mk new =>
      exact .mk (Nat.le_trans le new)

theorem IsLiteral.le_of_mem_ids
    {bound : Nat} {value : Literal} {branch : Branch} (isLiteral : IsLiteral bound value branch)
    {id : NodeId} (member : id ∈ branch.ids) :
    bound ≤ id := by
  cases isLiteral with
  | mk new =>
      rcases List.mem_cons.mp member with rfl | inside
      · exact new
      · exact absurd inside List.not_mem_nil

theorem Hosted.run_conditional
    (wellFormed : store.WellFormed) {condition : Branch} (hosted : Hosted store [] condition)
    (whenTrue whenFalse : Literal) :
    ∃ conditional changed,
      (do
        let first ← Edit.mkLiteral whenTrue
        let second ← Edit.mkLiteral whenFalse
        return some (← Edit.mkConditional (some condition.id) (some first) (some second)) :
          Edit NodeRef).run store = (.ok (some conditional.id), changed) ∧
      Becomes store condition.ids [] conditional changed ∧
      IsConditionalOf store.size whenTrue whenFalse condition conditional := by
  obtain ⟨first, afterFirst, runFirst, becomesFirst, isFirst⟩ := run_mkLiteral wellFormed whenTrue
  obtain ⟨second, afterSecond, runSecond, becomesSecond, isSecond⟩ :=
    run_mkLiteral becomesFirst.wellFormed whenFalse
  have isSecond := isSecond.mono becomesFirst.keeps.size_le
  have conditionHosted := becomesSecond.hosted_other (becomesFirst.hosted_other hosted)
  have firstHosted := becomesSecond.hosted_other becomesFirst.hosted
  have conditionFirst : condition.id ≠ first.id :=
    Nat.ne_of_lt (Nat.lt_of_lt_of_le hosted.held.id_lt_size isFirst.le_id)
  have conditionSecond : condition.id ≠ second.id :=
    Nat.ne_of_lt (Nat.lt_of_lt_of_le hosted.held.id_lt_size isSecond.le_id)
  have firstSecond : first.id ≠ second.id := by
    intro same
    have inSecond := becomesSecond.fresh _ (id_mem_ids second)
    have bound := becomesFirst.hosted.held.id_lt_size
    rw [same] at bound
    exact absurd bound (Nat.not_lt_of_le (inSecond.resolve_left List.not_mem_nil))
  obtain ⟨changed, run, becomes⟩ := run_mkNodeWith becomesSecond.wellFormed .conditional
    [(.condition, condition), (.trueExpression, first), (.falseExpression, second)]
    (by simp [conditionHosted, firstHosted, becomesSecond.hosted])
    (by simp [conditionFirst, conditionSecond, firstSecond])
    (by simp [Payload.kind, NodeKind.roles])
    (by intro role _; cases role <;> simp)
  have sizes := Nat.le_trans becomesFirst.keeps.size_le becomesSecond.keeps.size_le
  refine ⟨_, changed, ?_, ?_, .mk sizes isFirst isSecond⟩
  · have run : (Edit.mkConditional (some condition.id) (some first.id) (some second.id)).run
        afterSecond = (.ok afterSecond.size, changed) := run
    rw [Edit.run_bind_ok runFirst, Edit.run_bind_ok runSecond, Edit.run_bind_ok run]
    rfl
  · have literals : Becomes store condition.ids [] second afterSecond :=
      (becomesFirst.mono fun id member => absurd member List.not_mem_nil).trans_of_source
        becomesSecond fun id member => absurd member List.not_mem_nil
    refine literals.trans_of_source becomes fun id member => ?_
    simp only [idsOfAll, List.append_nil, List.mem_append] at member
    rcases member with inCondition | inFirst | inSecond
    · exact Or.inl inCondition
    · exact Or.inr (isFirst.le_of_mem_ids inFirst)
    · exact Or.inr (isSecond.le_of_mem_ids inSecond)

theorem Hosted.run_comparison
    (wellFormed : store.WellFormed) {operand : Branch} (hosted : Hosted store [] operand)
    (value : Literal) :
    ∃ comparison changed,
      (do
        let literal ← Edit.mkLiteral value
        return some (← Edit.mkBinary .inequality (some operand.id) (some literal)) :
          Edit NodeRef).run store = (.ok (some comparison.id), changed) ∧
      Becomes store operand.ids [] comparison changed ∧
      IsComparisonOf store.size value operand comparison := by
  obtain ⟨literal, afterLiteral, runLiteral, becomesLiteral, isLiteral⟩ :=
    run_mkLiteral wellFormed value
  have operandHosted := becomesLiteral.hosted_other hosted
  have different : operand.id ≠ literal.id :=
    Nat.ne_of_lt (Nat.lt_of_lt_of_le hosted.held.id_lt_size isLiteral.le_id)
  obtain ⟨changed, run, becomes⟩ := run_mkNodeWith becomesLiteral.wellFormed (.binary .inequality)
    [(.left, operand), (.right, literal)] (by simp [operandHosted, becomesLiteral.hosted])
    (by simp [different]) (by simp [Payload.kind, NodeKind.roles])
    (by intro role _; cases role <;> simp)
  refine ⟨_, changed, ?_, ?_, .mk becomesLiteral.keeps.size_le isLiteral⟩
  · have run : (Edit.mkBinary .inequality (some operand.id) (some literal.id)).run
        afterLiteral = (.ok afterLiteral.size, changed) := run
    rw [Edit.run_bind_ok runLiteral, Edit.run_bind_ok run]
    rfl
  · have literals : Becomes store operand.ids [] literal afterLiteral :=
      becomesLiteral.mono fun id member => absurd member List.not_mem_nil
    refine literals.trans_of_source becomes fun id member => ?_
    simp only [idsOfAll, List.append_nil, List.mem_append] at member
    exact member.imp_right isLiteral.le_of_mem_ids

end Branch

end TypedJava
