import TypedJava.Proofs.ConversionPass.DepthLimit
import TypedJava.Proofs.ConversionPass.Revision
import TypedJava.Proofs.Edit.Structural

/-! # The pass keeps the content of a tree

Whatever the pass does to a branch is a revision of it. In the store this says that the listing of
the whole tree, restricted to old nodes, is the old listing without some casts, their types and
their parentheses. -/

namespace TypedJava

namespace Branch

variable {context : Context} {bound : Nat}

theorem IsWritten.le_of_mem_ids
    {type : Ty} {written : Branch} (isWritten : IsWritten bound type written) :
    ∀ id ∈ written.ids, bound ≤ id := by
  induction isWritten with
  | mk types new isSyntax _ inductionHypothesis =>
      intro id member
      rcases List.mem_cons.mp member with rfl | deeper
      · exact new
      · obtain ⟨entry, isChild, inside⟩ := mem_idsOfAll.mp deeper
        exact inductionHypothesis entry isChild id inside

theorem IsWritten.admits
    {type : Ty} {written : Branch} (isWritten : IsWritten bound type written) :
    written.Admits bound := by
  induction isWritten with
  | @mk id payload type children types new isSyntax _ inductionHypothesis =>
      refine .node (Or.inr ?_) inductionHypothesis
      cases payload <;> first | exact isSyntax | cases isSyntax

theorem IsToken.admits
    {text : String} {token : Branch} (isToken : IsToken bound text token) :
    token.Admits bound := by
  cases isToken with
  | mk new =>
      exact .node (Or.inr rfl) fun entry member => absurd member List.not_mem_nil

theorem IsLiteral.admits
    {value : Literal} {literal : Branch} (isLiteral : IsLiteral bound value literal) :
    literal.Admits bound := by
  cases isLiteral with
  | mk new =>
      exact .node (Or.inr rfl) fun entry member => absurd member List.not_mem_nil

theorem WrapsInCast.revises
    {options : TypeSyntaxOptions} {type : Ty} {operand cast : Branch}
    (wraps : WrapsInCast context bound options type operand cast) :
    Revises bound operand cast := by
  cases wraps with
  | @mk written cast isWritten isCast =>
      cases isCast with
      | @mk id left right new isLeft isRight =>
          have surrounds : Revises bound operand
              (Frame.fill ⟨id, .cast, .empty, .expression, [(.leftParenthesis, left),
                (.type, written), (.rightParenthesis, right)], []⟩ operand) := by
            refine .surround new rfl (fun _ => ⟨rfl, by simp⟩) ?_
              (fun id member => absurd member List.not_mem_nil) ?_
              (fun entry member => absurd member List.not_mem_nil)
            · intro id member
              simp only [idsOfAll, List.append_nil, List.mem_append] at member
              rcases member with inLeft | inWritten | inRight
              · exact isLeft.le_of_mem_ids inLeft
              · exact isWritten.le_of_mem_ids id inWritten
              · exact isRight.le_of_mem_ids inRight
            · intro entry member
              simp only [List.mem_cons, List.not_mem_nil, or_false] at member
              rcases member with rfl | rfl | rfl
              · exact isLeft.admits
              · exact isWritten.admits
              · exact isRight.admits
          exact surrounds

theorem IsConditionalOf.revises
    {one zero : Literal} {condition conditional : Branch}
    (isConditional : IsConditionalOf bound one zero condition conditional) :
    Revises bound condition conditional := by
  cases isConditional with
  | @mk id first second new isFirst isSecond =>
      have surrounds : Revises bound condition
          (Frame.fill ⟨id, .conditional, .empty, .condition, [],
            [(.trueExpression, first), (.falseExpression, second)]⟩ condition) := by
        refine .surround new rfl (fun isCast => absurd isCast (by simp))
          (fun id member => absurd member List.not_mem_nil) ?_
          (fun entry member => absurd member List.not_mem_nil) ?_
        · intro id member
          simp only [idsOfAll, List.append_nil, List.mem_append] at member
          rcases member with inFirst | inSecond
          · exact isFirst.le_of_mem_ids inFirst
          · exact isSecond.le_of_mem_ids inSecond
        · intro entry member
          simp only [List.mem_cons, List.not_mem_nil, or_false] at member
          rcases member with rfl | rfl
          · exact isFirst.admits
          · exact isSecond.admits
      exact surrounds

theorem IsComparisonOf.revises
    {zero : Literal} {operand comparison : Branch}
    (isComparison : IsComparisonOf bound zero operand comparison) :
    Revises bound operand comparison := by
  cases isComparison with
  | @mk id literal new isLiteral =>
      have surrounds : Revises bound operand
          (Frame.fill ⟨id, .binary .inequality, .empty, .left, [], [(.right, literal)]⟩
            operand) := by
        refine .surround new rfl (fun isCast => absurd isCast (by simp))
          (fun id member => absurd member List.not_mem_nil) ?_
          (fun entry member => absurd member List.not_mem_nil) ?_
        · intro id member
          simp only [idsOfAll, List.append_nil] at member
          exact isLiteral.le_of_mem_ids member
        · intro entry member
          cases List.mem_singleton.mp member
          exact isLiteral.admits
      exact surrounds

section Steps

variable {again : Option Frame → Branch → Branch → Prop}
  (each : ∀ surroundings branch result, again surroundings branch result →
    Revises bound branch result)

include each

theorem FinishesConditional.revises
    {frame : Frame} {target : Ty} {conditional result : Branch}
    (finishes : FinishesConditional context bound again frame target conditional result) :
    Revises bound conditional result := by
  cases finishes with
  | wide _ related =>
      exact each _ _ _ related
  | unwritten _ _ =>
      exact .refl conditional
  | needless _ _ _ _ related =>
      exact each _ _ _ related
  | needed _ _ wraps _ related =>
      exact wraps.revises.trans (each _ _ _ related)

theorem TreatsCast.revises
    {surroundings : Option Frame} {cast result : Branch} (isCast : cast.payload = .cast)
    (treats : TreatsCast context bound again surroundings cast result) :
    Revises bound cast result := by
  have dropped {operand : Branch} (found : cast.child? .expression = some operand) :
      Revises bound cast operand := by
    obtain ⟨frame, rfl, isFirst⟩ := exists_frame found
    exact .drop isCast isFirst
  cases treats with
  | unknown _ =>
      exact .refl cast
  | legal _ _ _ =>
      exact .refl cast
  | detached _ _ _ _ _ =>
      exact .refl cast
  | noLiterals _ _ _ _ _ =>
      exact .refl cast
  | toNumber _ found _ _ _ _ _ isConditional finishes =>
      exact ((dropped found).trans isConditional.revises).trans (finishes.revises each)
  | toTruth _ found _ _ _ _ isComparison related =>
      exact ((dropped found).trans isComparison.revises).trans (each _ _ _ related)
  | unwritten _ _ _ _ =>
      exact .refl cast
  | detour _ _ _ _ _ _ _ wraps related =>
      exact (wraps.revises.trans (each _ _ _ related)).fill _

theorem TreatsAssignment.revises
    {node result : Branch} (treats : TreatsAssignment context bound again node result) :
    Revises bound node result := by
  have cast {target source : Ty} {value cast : Branch}
      (casts : CastsValue context bound target source value cast) : Revises bound value cast := by
    cases casts with
    | kept _ =>
        exact .refl value
    | cast _ _ wraps =>
        exact wraps.revises
  cases treats with
  | unknown _ =>
      exact .refl node
  | plain _ _ _ casts _ _ =>
      exact (cast casts).fill _
  | noLiterals _ _ _ casts _ _ =>
      exact (cast casts).fill _
  | toNumber _ _ _ casts _ _ isConditional finishes =>
      exact (((cast casts).trans isConditional.revises).trans (finishes.revises each)).fill _
  | toTruth _ _ _ casts _ isComparison related =>
      exact (((cast casts).trans isComparison.revises).trans (each _ _ _ related)).fill _

theorem TreatsAccess.revises
    {surroundings : Option Frame} {node result : Branch}
    (treats : TreatsAccess context bound again surroundings node result) :
    Revises bound node result := by
  cases treats with
  | unknown _ =>
      exact .refl node
  | settled _ _ _ =>
      exact .refl node
  | wrapped _ _ _ _ _ wraps related =>
      exact (wraps.revises.trans (each _ _ _ related)).fill _

theorem TreatsNode.revises
    {below : Branch → Branch → Prop}
    (descends : ∀ branch middle, below branch middle →
      Revises bound branch middle ∧ middle.payload = branch.payload)
    {surroundings : Option Frame} {branch result : Branch}
    (treats : TreatsNode context bound again below surroundings branch result) :
    Revises bound branch result := by
  cases treats with
  | leave _ =>
      exact .refl branch
  | descend _ below =>
      exact (descends _ _ below).1
  | access _ below treats =>
      exact (descends _ _ below).1.trans (treats.revises each)
  | cast isCast below treats =>
      obtain ⟨first, samePayload⟩ := descends _ _ below
      refine first.trans (treats.revises each ?_)
      rw [samePayload]
      exact Payload.eq_cast_of_handling isCast
  | assignment _ below treats =>
      exact (descends _ _ below).1.trans (treats.revises each)

end Steps

/-- What the pass makes of a branch is a revision of the branch. -/
theorem Converts.revises
    {mayCut : Prop} {fuel : Nat} {surroundings : Option Frame} {branch result : Branch}
    (converts : Converts context bound mayCut fuel surroundings branch result) :
    Revises bound branch result := by
  induction fuel generalizing surroundings branch result with
  | zero =>
      refine TreatsNode.revises ?_ ?_ converts
      · rintro _ branch _ ⟨_, rfl⟩
        exact .refl _
      · rintro branch _ ⟨_, rfl⟩
        exact ⟨.refl _, rfl⟩
  | succ fuel inductionHypothesis =>
      refine TreatsNode.revises (fun _ _ _ => inductionHypothesis) ?_ converts
      rintro ⟨top, payload, annotations, children⟩ _ ⟨visits⟩
      obtain ⟨visited, rfl, pairwise⟩ :=
        visits.exists_pairwise fun _ _ _ _ _ => inductionHypothesis
      exact ⟨.of_children pairwise, rfl⟩

/-- A branch without a parent keeps the node at its top. -/
theorem Converts.id_eq
    {mayCut : Prop} {fuel : Nat} {branch result : Branch}
    (converts : Converts context bound mayCut fuel none branch result) :
    result.id = branch.id := by
  have treated {again : Option Frame → Branch → Branch → Prop} {below : Branch → Branch → Prop}
      (keepsTop : ∀ branch middle, below branch middle → middle.id = branch.id)
      (treats : TreatsNode context bound again below none branch result) :
      result.id = branch.id := by
    cases treats with
    | leave _ =>
        rfl
    | descend _ below =>
        exact keepsTop _ _ below
    | access _ below treats =>
        rw [← keepsTop _ _ below]
        cases treats <;> rfl
    | cast _ below treats =>
        rw [← keepsTop _ _ below]
        cases treats with
        | toNumber _ _ _ _ attached _ _ _ _ =>
            cases attached
        | toTruth _ _ _ _ attached _ _ _ =>
            cases attached
        | _ =>
            rfl
    | assignment _ below treats =>
        rw [← keepsTop _ _ below]
        cases treats <;> rfl
  cases fuel with
  | zero =>
      refine treated ?_ converts
      rintro branch _ ⟨_, rfl⟩
      rfl
  | succ fuel =>
      refine treated ?_ converts
      rintro branch _ ⟨_⟩
      rfl

end Branch

/-! ## In the store -/

namespace Store

/-- Is a node gone when some casts give way to their operands? Then it is one of the casts, or it
is below the type or a parenthesis of one. -/
def goesWith (store : Store) (casts : List NodeId) (id : NodeId) : Bool :=
  casts.any fun cast => cast == id ||
    [Role.leftParenthesis, .type, .rightParenthesis].any fun role =>
      (store.childrenIn (some cast) role).any fun child => store.isAtOrAbove (some child) (some id)

variable {store : Store}

theorem goesWith_append (first second : List NodeId) (id : NodeId) :
    store.goesWith (first ++ second) id = (store.goesWith first id || store.goesWith second id) :=
  List.any_append

theorem WellFormed.goesWith_iff
    (wellFormed : store.WellFormed) {casts : List NodeId} {id : NodeId} :
    store.goesWith casts id = true ↔ ∃ cast ∈ casts, cast = id ∨
      ∃ role ∈ [Role.leftParenthesis, .type, .rightParenthesis],
        ∃ child ∈ store.childrenIn (some cast) role, store.Above child id := by
  simp only [goesWith, List.any_eq_true, Bool.or_eq_true, beq_iff_eq, wellFormed.isAtOrAbove_iff,
    Option.some.injEq, exists_eq_left']

/-- What goes with a cast is below it. -/
theorem WellFormed.above_of_goesWith
    (wellFormed : store.WellFormed) {casts : List NodeId} {id : NodeId}
    (goes : store.goesWith casts id = true) :
    ∃ cast ∈ casts, store.Above cast id := by
  obtain ⟨cast, member, rfl | ⟨role, _, child, listed, above⟩⟩ := wellFormed.goesWith_iff.mp goes
  · exact ⟨cast, member, .refl⟩
  · have placed := wellFormed.listed cast role child listed
    exact ⟨cast, member, (Above.parent placed).trans above⟩

end Store

namespace Branch

variable {store : Store}

/-- Some casts among given nodes explain what has remained of a listing. -/
def Explains (store : Store) (ids kept : List NodeId) : Prop :=
  ∃ casts : List NodeId, (∀ cast ∈ casts, cast ∈ ids ∧ store.kind (some cast) = .cast) ∧
    kept = ids.filter fun id => !store.goesWith casts id

/-- The casts of a branch take nothing along from outside. -/
private theorem not_goesWith
    (wellFormed : store.WellFormed) {branch : Branch} (held : branch.HeldIn store)
    {casts : List NodeId} (inside : ∀ cast ∈ casts, cast ∈ branch.ids) {id : NodeId}
    (outside : id ∉ branch.ids) :
    store.goesWith casts id = false := by
  rw [← Bool.not_eq_true]
  intro goes
  obtain ⟨cast, isCast, above⟩ := wellFormed.above_of_goesWith goes
  have topAbove := (held.mem_ids_iff wellFormed).mp (inside cast isCast)
  exact outside ((held.mem_ids_iff wellFormed).mpr (topAbove.trans above))

private theorem explains_all
    (wellFormed : store.WellFormed) {children : List (Role × Branch)}
    (held : ∀ entry ∈ children, entry.2.HeldIn store) (nodup : (idsOfAll children).Nodup)
    (each : ∀ entry ∈ children, ∀ kept, entry.2.Leaves store.size kept →
      Explains store entry.2.ids kept)
    {kept : List NodeId} (leaves : LeavesAll store.size children kept) :
    Explains store (idsOfAll children) kept := by
  induction children generalizing kept with
  | nil =>
      rw [LeavesAll] at leaves
      exact ⟨[], fun cast member => absurd member List.not_mem_nil, leaves⟩
  | cons entry rest inductionHypothesis =>
      obtain ⟨first, others, inFirst, inRest, rfl⟩ := leaves
      rw [idsOfAll, List.nodup_append] at nodup
      obtain ⟨_, restNodup, disjoint⟩ := nodup
      have restHeld : ∀ entry ∈ rest, entry.2.HeldIn store :=
        fun entry member => held entry (List.mem_cons_of_mem _ member)
      obtain ⟨firstCasts, areFirst, rfl⟩ := each entry List.mem_cons_self first inFirst
      obtain ⟨otherCasts, areOthers, rfl⟩ := inductionHypothesis restHeld restNodup
        (fun entry member => each entry (List.mem_cons_of_mem _ member)) inRest
      refine ⟨firstCasts ++ otherCasts, fun cast member => ?_, ?_⟩
      · rw [idsOfAll, List.mem_append]
        rcases List.mem_append.mp member with isFirst | isOther
        · exact ⟨Or.inl (areFirst cast isFirst).1, (areFirst cast isFirst).2⟩
        · exact ⟨Or.inr (areOthers cast isOther).1, (areOthers cast isOther).2⟩
      · rw [idsOfAll, List.filter_append]
        congr 1
        · apply List.filter_congr
          intro id member
          have others : store.goesWith otherCasts id = false := by
            rw [← Bool.not_eq_true]
            intro goes
            obtain ⟨cast, isCast, above⟩ := wellFormed.above_of_goesWith goes
            obtain ⟨other, isOther, inside⟩ := mem_idsOfAll.mp (areOthers cast isCast).1
            have otherHeld := restHeld other isOther
            have topAbove := (otherHeld.mem_ids_iff wellFormed).mp inside
            have found := (otherHeld.mem_ids_iff wellFormed).mpr (topAbove.trans above)
            exact disjoint id member id (mem_idsOfAll.mpr ⟨other, isOther, found⟩) rfl
          rw [Store.goesWith_append, others, Bool.or_false]
        · apply List.filter_congr
          intro id member
          have first : store.goesWith firstCasts id = false :=
            not_goesWith wellFormed (held entry List.mem_cons_self)
              (fun cast isCast => (areFirst cast isCast).1)
              fun inFirst => disjoint id inFirst id member rfl
          rw [Store.goesWith_append, first, Bool.false_or]

/-- A cast that gives way to its operand leaves what its operand leaves. -/
private theorem explains_operand
    (wellFormed : store.WellFormed) {frame : Frame} {operand : Branch}
    (held : (frame.fill operand).HeldIn store) (isCast : frame.payload = .cast)
    (isFirst : frame.IsFirst .expression) {kept : List NodeId}
    (explains : Explains store operand.ids kept) :
    Explains store (frame.fill operand).ids kept := by
  obtain ⟨casts, areCasts, rfl⟩ := explains
  have kind : store.kind (some frame.parent) = .cast := by
    have same := held.kind_eq
    rw [Frame.id_fill] at same
    rw [same]
    exact congrArg Payload.kind isCast
  have operandHeld := held.of_mem_children (frame.mem_children_fill operand)
  have nodup := held.ids_nodup wellFormed
  rw [Frame.ids_fill, List.nodup_cons, List.nodup_append, List.nodup_append] at nodup
  obtain ⟨notTop, ⟨_, _, beforeDisjoint⟩, _, afterDisjoint⟩ := nodup
  simp only [List.mem_append] at notTop
  -- The expression is single, so every other child is the type or a parenthesis.
  have sibling : ∀ entry ∈ frame.before ++ frame.after, ∀ id ∈ entry.2.ids,
      store.goesWith (frame.parent :: casts) id = true := by
    intro entry member id inside
    have isChild : entry ∈ (frame.fill operand).children := by
      rcases List.mem_append.mp member with before | after
      · exact mem_before_children before operand
      · exact mem_after_children after operand
    have isRole := held.role_mem wellFormed isChild
    rw [Frame.fill, Branch.payload, isCast] at isRole
    have notOperand := held.role_ne_of_sibling wellFormed isFirst rfl member
    have roles : entry.1 ∈ [Role.leftParenthesis, .type, .rightParenthesis] := by
      simp only [Payload.kind, NodeKind.roles, List.mem_cons, List.not_mem_nil, or_false]
        at isRole ⊢
      tauto
    have listed := wellFormed.mem_childrenIn (held.place?_of_mem_children wellFormed isChild)
    have above := ((held.of_mem_children isChild).mem_ids_iff wellFormed).mp inside
    exact wellFormed.goesWith_iff.mpr
      ⟨frame.parent, List.mem_cons_self, Or.inr ⟨entry.1, roles, entry.2.id, listed, above⟩⟩
  have siblings (entries : List (Role × Branch))
      (subset : ∀ entry ∈ entries, entry ∈ frame.before ++ frame.after) :
      (idsOfAll entries).filter (fun id => !store.goesWith (frame.parent :: casts) id) = [] := by
    rw [List.filter_eq_nil_iff]
    intro id member
    obtain ⟨entry, isEntry, inside⟩ := mem_idsOfAll.mp member
    simp [sibling entry (subset entry isEntry) id inside]
  have stays : ∀ id ∈ operand.ids,
      store.goesWith (frame.parent :: casts) id = store.goesWith casts id := by
    intro id member
    have alone : store.goesWith [frame.parent] id = false := by
      rw [← Bool.not_eq_true]
      intro goes
      obtain ⟨cast, isTop, reason⟩ := wellFormed.goesWith_iff.mp goes
      cases List.mem_singleton.mp isTop
      rcases reason with rfl | ⟨role, isRole, child, listed, above⟩
      · exact notTop (Or.inl (Or.inr member))
      · have placed := wellFormed.listed _ _ _ listed
        obtain ⟨entry, isChild, sameRole, sameChild⟩ :=
          held.exists_child_of_place? wellFormed placed
        have inside : id ∈ entry.2.ids :=
          ((held.of_mem_children isChild).mem_ids_iff wellFormed).mpr (sameChild ▸ above)
        rcases List.mem_append.mp isChild with before | here
        · exact beforeDisjoint id (mem_idsOfAll.mpr ⟨entry, before, inside⟩) id member rfl
        · rcases List.mem_cons.mp here with rfl | after
          · rw [← sameRole, isFirst.role_eq] at isRole
            simp at isRole
          · exact afterDisjoint id (List.mem_append_right _ member) id
              (mem_idsOfAll.mpr ⟨entry, after, inside⟩) rfl
    rw [← List.singleton_append, Store.goesWith_append, alone, Bool.false_or]
  refine ⟨frame.parent :: casts, fun cast member => ?_, ?_⟩
  · rcases List.mem_cons.mp member with rfl | deeper
    · exact ⟨id_mem_ids (frame.fill operand), kind⟩
    · obtain ⟨inside, isCast⟩ := areCasts cast deeper
      exact ⟨mem_ids_of_mem_children (frame.mem_children_fill operand) inside, isCast⟩
  · have gone : store.goesWith (frame.parent :: casts) frame.parent = true :=
      wellFormed.goesWith_iff.mpr ⟨frame.parent, List.mem_cons_self, Or.inl rfl⟩
    rw [Frame.ids_fill, List.filter_cons_of_neg (by simp [gone]), List.filter_append,
      List.filter_append, siblings frame.before fun entry => List.mem_append_left _,
      siblings frame.after fun entry => List.mem_append_right _, List.nil_append, List.append_nil]
    exact List.filter_congr fun id member => by rw [stays id member]

/-- What a branch of a well-formed store leaves is its listing without some of its casts. -/
theorem Leaves.explains
    (wellFormed : store.WellFormed) {branch : Branch} (held : branch.HeldIn store)
    {kept : List NodeId} (leaves : branch.Leaves store.size kept) :
    Explains store branch.ids kept := by
  induction branch using Branch.induction generalizing kept with
  | node top payload annotations children inductionHypothesis =>
      have each : ∀ entry ∈ children, ∀ kept, entry.2.Leaves store.size kept →
          Explains store entry.2.ids kept :=
        fun entry member kept leaves =>
          inductionHypothesis entry member (held.of_mem_children member) leaves
      have nodup := held.ids_nodup wellFormed
      rw [ids, List.nodup_cons] at nodup
      rcases leaves with ⟨below, all, rfl⟩ | ⟨isCast, operand⟩
      · obtain ⟨casts, areCasts, rfl⟩ := explains_all wellFormed
          (fun entry member => held.of_mem_children member) nodup.2 each all
        refine ⟨casts, fun cast member => ⟨List.mem_cons_of_mem _ (areCasts cast member).1,
          (areCasts cast member).2⟩, ?_⟩
        have stays : store.goesWith casts top = false := by
          rw [← Bool.not_eq_true]
          intro goes
          obtain ⟨cast, isCast, above⟩ := wellFormed.above_of_goesWith goes
          have inside := (areCasts cast isCast).1
          have below := (held.mem_ids_iff wellFormed).mp (List.mem_cons_of_mem top inside)
          exact nodup.1 (wellFormed.above_antisymm above below ▸ inside)
        have old : top < store.size := held.id_lt_size
        rw [if_pos old, ids, List.filter_cons_of_pos (by simp [stays])]
        rfl
      · obtain ⟨entry, found, leaves⟩ := leavesOperand_iff.mp operand
        have foundChild : (node top payload annotations children).child? .expression =
            some entry.2 := by
          rw [child?, Branch.children, found, Option.map_some]
        obtain ⟨frame, same, isFirst⟩ := exists_frame foundChild
        have isChild := List.mem_of_find?_eq_some found
        have explained := each entry isChild kept leaves
        rw [same] at held ⊢
        refine explains_operand wellFormed held ?_ isFirst explained
        have samePayload := congrArg Branch.payload same
        exact samePayload.symm.trans isCast

/-- What holds of a branch in frames is revised with the branch. -/
theorem Revises.within
    {bound : Nat} {branch revised : Branch} (revises : Revises bound branch revised)
    (frames : List Frame) :
    Revises bound (within frames branch) (within frames revised) := by
  induction frames generalizing branch revised with
  | nil =>
      exact revises
  | cons frame frames inductionHypothesis =>
      exact inductionHypothesis (revises.fill frame)

/-- The climb from a hosted branch ends at the outermost frame. -/
theorem Hosted.root_eq
    {frames : List Frame} {branch : Branch} (hosted : Hosted store frames branch)
    (wellFormed : store.WellFormed) :
    store.root (some branch.id) = some (Branch.within frames branch).id := by
  have climb : ∃ path, store.Path branch.id path ∧
      path.getLast? = some (Branch.within frames branch).id := by
    induction frames generalizing branch with
    | nil =>
        exact ⟨[branch.id], .root hosted.place?_eq_none, rfl⟩
    | cons frame frames inductionHypothesis =>
        obtain ⟨path, isPath, last⟩ := inductionHypothesis hosted.outer
        refine ⟨branch.id :: path, .step (hosted.place?_eq wellFormed) isPath, ?_⟩
        rw [List.getLast?_cons, last]
        rfl
  obtain ⟨path, isPath, last⟩ := climb
  have short := wellFormed.path_length_le isPath
  rw [Store.root, isPath.rootWithin_eq (by omega), last]

/-- The new nodes of a branch that admits them have payloads that the pass puts in. -/
theorem Admits.exists_payload
    {bound : Nat} {branch : Branch} (admits : branch.Admits bound) (held : branch.HeldIn store)
    {id : NodeId} (member : id ∈ branch.ids) (new : bound ≤ id) :
    ∃ payload, store.payload? (some id) = some payload ∧ payload.mayBeInserted = true := by
  induction branch using Branch.induction with
  | node top payload annotations children inductionHypothesis =>
      obtain ⟨inserted, admitted⟩ := admits
      rcases List.mem_cons.mp member with rfl | deeper
      · exact ⟨payload, held.payload?_eq, inserted.resolve_left (Nat.not_lt_of_le new)⟩
      · obtain ⟨entry, isChild, inside⟩ := mem_idsOfAll.mp deeper
        exact inductionHypothesis entry isChild (admitted entry isChild)
          (held.of_mem_children isChild) inside

end Branch

/-- A change of a store keeps the content of the tree below a node: the listing of the old nodes is
the old one without some casts, their types and their parentheses, no old node has another payload
or other annotations, and the new nodes in the tree are conversions and what they consist of. -/
structure Store.KeepsContent (store changed : Store) (top : NodeRef) : Prop where
  listing : ∃ casts : List NodeId, (∀ cast ∈ casts, store.kind (some cast) = .cast) ∧
    (changed.subtree top).filter (· < store.size) =
      (store.subtree top).filter fun id => !store.goesWith casts id
  label?_eq : ∀ id, id < store.size → changed.label? (some id) = store.label? (some id)
  inserted : ∀ id ∈ changed.subtree top, store.size ≤ id →
    ∃ payload, changed.payload? (some id) = some payload ∧ payload.mayBeInserted = true

namespace Edit

private theorem subtree_root_of_missing
    {store : Store} {root : NodeRef} (missing : store.node? root = none) :
    store.subtree (store.root root) = [] := by
  have noParent : store.parent root = none := by
    rw [Store.parent, Store.place?, missing]
    rfl
  have sameRoot : store.root root = root := by
    rw [Store.root]
    cases store.size <;> simp [Store.rootWithin, noParent]
  rw [sameRoot]
  cases root with
  | none =>
      rfl
  | some id =>
      rw [Store.subtree]
      cases store.size <;> simp [Store.subtreeWithin, missing]

/-- The pass succeeds on every tree and neither loses nor doubles nor reorders its content. -/
theorem insertConversions_keepsContent
    (context : Context) (root : NodeRef) {store : Store} (wellFormed : store.WellFormed) :
    ∃ changed, (insertConversions context root).run store = (.ok (), changed) ∧
      store.KeepsContent changed (store.root root) := by
  cases found : store.node? root with
  | none =>
      have empty := subtree_root_of_missing found
      refine ⟨store, run_insertConversions_of_missing found, ⟨[], by simp, ?_⟩, fun _ _ => rfl, ?_⟩
      · rw [empty]
        rfl
      · rw [empty]
        exact fun id member => absurd member List.not_mem_nil
  | some node =>
      obtain ⟨id, rfl⟩ : ∃ id, root = some id := by
        cases root with
        | none =>
            cases found
        | some id =>
            exact ⟨id, rfl⟩
      obtain ⟨frames, branch, hosted, rfl⟩ :=
        Branch.exists_hosted wellFormed (Store.lt_size_of_node? found)
      obtain ⟨other, changed, run, becomes, converts⟩ := run_insertConversions wellFormed hosted
      have sameTop : (Branch.within frames other).id = (Branch.within frames branch).id := by
        cases frames with
        | nil =>
            exact converts.id_eq
        | cons frame frames =>
            exact Branch.id_within_cons frame frames other branch
      have before := hosted.whole.subtree_eq wellFormed
      have after := becomes.hosted.whole.subtree_eq becomes.wellFormed
      rw [sameTop] at after
      have revises := converts.revises.within frames
      have leaves := revises.leaves _ (Branch.leaves_self _)
      obtain ⟨casts, areCasts, same⟩ := leaves.explains wellFormed hosted.whole
      refine ⟨changed, run, ?_⟩
      rw [hosted.root_eq wellFormed]
      refine ⟨⟨casts, fun cast member => (areCasts cast member).2, ?_⟩, becomes.label?_eq, ?_⟩
      · rw [after, before]
        exact same
      · rw [after]
        intro id member new
        have admitted := revises.admits
          (Branch.admits_of_old fun id inside => hosted.whole.lt_size inside)
        exact admitted.exists_payload becomes.hosted.whole member new

/-- In the block `(int) true;` the cast gives way to a conditional. -/
theorem insertConversions_keepsContent_of_truthCast :
    let store := ((do
        let truth ← mkLiteral (.boolean true)
        let type ← mkNamedType "int" []
        let cast ← mkCast (some type) (some truth)
        let statement ← mkStatement (some cast)
        mkBlock [some statement] : Edit NodeId).run Store.empty).2
    ∃ changed, (insertConversions (.ofCatalog .standard) (some 6)).run store = (.ok (), changed) ∧
      store.KeepsContent changed (store.root (some 6)) := by
  refine insertConversions_keepsContent (.ofCatalog .standard) (some 6) ?_
  refine Structural.keepsWellFormed ?_ _ Store.wellFormed_empty
  exact .bind (.mkLiteral _) fun _ => .bind (.mkNamedType _ _) fun _ => .bind (.mkCast _ _) fun _ =>
    .bind (.mkStatement _) fun _ => .mkBlock _

end Edit

end TypedJava
