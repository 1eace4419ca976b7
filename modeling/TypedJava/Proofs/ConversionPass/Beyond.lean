import TypedJava.Proofs.ConversionPass.DepthLimit
import TypedJava.Proofs.ConversionPass.Levels

/-! # Beyond the depth limit

The pass counts the levels that it goes down and the times that it treats a new node. The count
never falls behind the distance from the root in the tree as it was: a node keeps the level that it
had, a new node gets the level of the node in whose place it comes, and every rule changes only the
node that it is about, its parent and its children. So nothing changes more than one level beyond
the limit. -/

namespace TypedJava

namespace Edit

open Store

variable {level : NodeId → Nat} {limit rank depth : Nat} {store : Store} {context : Context}

/-! ## The rules -/

namespace Treatment.StaysWithin

variable {again : Treatment} (stays : again.StaysWithin limit depth) (inside : depth ≤ limit)

include stays

theorem of_hasLevel
    (leveled : store.Leveled level) (shallow : rank ≤ depth) {node : NodeRef}
    (hasLevel : HasLevel level rank node) :
    Edit.StaysWithin limit (again node) level store fun _ _ => True :=
  stays level store node leveled fun id member => hasLevel id member ▸ shallow

include inside

theorem finishConditional
    (leveled : store.Leveled level) (shallow : rank ≤ depth) {conditional : NodeRef}
    (hasLevel : HasLevel level rank conditional) (target : Ty) :
    Edit.StaysWithin limit (Edit.finishConditional context again conditional target) level store
      fun _ _ => True := by
  have small := Nat.le_trans shallow inside
  rw [Edit.finishConditional]
  split
  · split
    · exact .pure leveled trivial
    · rename_i options _
      refine (Edit.StaysWithin.wrapInCast leveled small hasLevel options target).bind ?_
      rintro cast changed later run leveledLater - ⟨isCast, sameLevel⟩
      -- the operand that comes back is the conditional; another child could be a level deeper
      have operand := requireChild_of_wrapInCast leveled.wellFormed run
      refine .bind_of_run (run_get changed) ?_
      split
      · refine (Edit.StaysWithin.dropCast leveledLater small isCast operand sameLevel).bind ?_
        exact fun _ _ _ _ leveledLast _ dropped => stays.of_hasLevel leveledLast shallow dropped
      · exact stays.of_hasLevel leveledLater shallow isCast
  · exact stays.of_hasLevel leveled shallow hasLevel

/-- A cast is put around a node, and the cast is treated. -/
theorem wrapInCast
    (leveled : store.Leveled level) {node : NodeRef} (shallow : ∀ id ∈ node, level id ≤ depth)
    (options : TypeSyntaxOptions) (type : Ty) :
    Edit.StaysWithin limit (do again (← Edit.wrapInCast context options node type)) level store
      fun _ _ => True := by
  obtain ⟨rank, small, hasLevel⟩ := exists_hasLevel shallow
  refine (Edit.StaysWithin.wrapInCast leveled (Nat.le_trans small inside) hasLevel options
    type).bind ?_
  exact fun _ _ _ _ leveledLater _ isCast => stays.of_hasLevel leveledLater small isCast.1

/-- The value of a node gives way to what converts it. -/
theorem replaceByConditional
    (leveled : store.Leveled level) (shallow : rank ≤ depth) {node value : NodeRef}
    (hasLevel : HasLevel level rank node) (below : FitsBelow level limit rank value) (target : Ty) :
    Edit.StaysWithin limit
      (do
        match ← Edit.replaceByConditional node value target with
        | none => return
        | some conditional => Edit.finishConditional context again conditional target)
      level store fun _ _ => True := by
  refine (Edit.StaysWithin.replaceByConditional leveled (Nat.le_trans shallow inside) hasLevel below
    target).bind ?_
  intro replaced _ _ _ leveledLater _ isNew
  cases replaced with
  | none =>
      exact .pure leveledLater trivial
  | some conditional =>
      exact stays.finishConditional inside leveledLater shallow (isNew conditional rfl) target

theorem replaceByComparison
    (leveled : store.Leveled level) (shallow : rank ≤ depth) {node value : NodeRef}
    (hasLevel : HasLevel level rank node) (below : FitsBelow level limit rank value)
    (kind : JvmKind) :
    Edit.StaysWithin limit (do again (← Edit.replaceByComparison node value kind)) level store
      fun _ _ => True := by
  refine (Edit.StaysWithin.replaceByComparison leveled (Nat.le_trans shallow inside) hasLevel below
    kind).bind ?_
  exact fun _ _ _ _ leveledLater _ isNew => stays.of_hasLevel leveledLater shallow isNew

end Treatment.StaysWithin

section Rules

variable {again : Treatment} (stays : again.StaysWithin limit (depth + 1))
  (inside : depth + 1 ≤ limit)

include stays inside

theorem treatIllegalCast_staysWithin
    (leveled : store.Leveled level) (shallow : rank ≤ depth) {cast operand : NodeRef}
    (hasLevel : HasLevel level rank cast) (below : FitsBelow level limit rank operand)
    (target source : Ty) :
    StaysWithin limit (treatIllegalCast context again cast operand target source) level store
      fun _ _ => True := by
  have small : rank ≤ depth + 1 := Nat.le_succ_of_le shallow
  rw [treatIllegalCast]
  refine .bind_of_run (run_ask _ store) ?_
  simp only
  split
  · split
    · exact .pure leveled trivial
    · exact stays.replaceByConditional inside leveled small hasLevel below target
  · split
    · split
      · exact .pure leveled trivial
      · exact stays.replaceByComparison inside leveled small hasLevel below _
    · split
      · exact .pure leveled trivial
      · exact stays.wrapInCast inside leveled
          (fun id member => Nat.le_trans (below id member).2.1 (Nat.succ_le_succ shallow)) _ _

theorem treatCast_staysWithin : Treatment.StaysWithin limit depth (treatCast context again) := by
  intro level store cast leveled bounded
  obtain ⟨rank, shallow, hasLevel⟩ := exists_hasLevel bounded
  have below := fitsBelow_childIn leveled hasLevel
    (Nat.le_trans (Nat.succ_le_succ shallow) inside) .expression
  rw [treatCast]
  refine .bind_of_run (run_get store) ?_
  simp only
  split
  · split
    · exact treatIllegalCast_staysWithin stays inside leveled shallow hasLevel below _ _
    · exact .pure leveled trivial
  · exact .pure leveled trivial

theorem convertValue_staysWithin
    (leveled : store.Leveled level) {value : NodeRef}
    (bounded : ∀ id ∈ value, level id ≤ depth + 1) (target source : Ty) :
    StaysWithin limit (Branch.convertValue context again target source value) level store
      fun _ _ => True := by
  obtain ⟨rank, small, hasLevel⟩ := exists_hasLevel bounded
  have below := hasLevel.fitsBelow (Nat.le_trans small inside)
  rw [Branch.convertValue]
  split
  · exact stays.replaceByConditional inside leveled small hasLevel below target
  · split
    · exact stays.replaceByComparison inside leveled small hasLevel below _
    · exact .pure leveled trivial

theorem treatAssignment_staysWithin :
    Treatment.StaysWithin limit depth (treatAssignment context again) := by
  intro level store node leveled bounded
  obtain ⟨rank, shallow, hasLevel⟩ := exists_hasLevel bounded
  have below := fitsBelow_childIn leveled hasLevel
    (Nat.le_trans (Nat.succ_le_succ shallow) inside) .right
  have valueBounded : ∀ id ∈ store.childIn node .right, level id ≤ depth + 1 :=
    fun id member => Nat.le_trans (below id member).2.1 (Nat.succ_le_succ shallow)
  rw [treatAssignment]
  refine .bind_of_run (run_get store) ?_
  simp only
  split
  · split
    · rename_i options _
      split
      · obtain ⟨valueRank, small, valueLevel⟩ := exists_hasLevel valueBounded
        refine (StaysWithin.wrapInCast leveled (Nat.le_trans small inside) valueLevel _ _).bind ?_
        intro cast _ later _ leveledLater _ isCast
        exact convertValue_staysWithin stays inside leveledLater
          (fun id member => isCast.1 id member ▸ small) _ _
      · exact convertValue_staysWithin stays inside leveled valueBounded _ _
    · exact convertValue_staysWithin stays inside leveled valueBounded _ _
  · exact .pure leveled trivial

theorem treatAccess_staysWithin :
    Treatment.StaysWithin limit depth (treatAccess context again) := by
  intro level store node leveled bounded
  obtain ⟨rank, shallow, hasLevel⟩ := exists_hasLevel bounded
  have below := fitsBelow_childIn leveled hasLevel
    (Nat.le_trans (Nat.succ_le_succ shallow) inside) .target
  rw [treatAccess]
  refine .bind_of_run (run_get store) ?_
  simp only
  split
  · split
    · exact .pure leveled trivial
    · exact stays.wrapInCast inside leveled
        (fun id member => Nat.le_trans (below id member).2.1 (Nat.succ_le_succ shallow)) _ _
  · exact .pure leveled trivial

theorem treatNode_staysWithin
    {descend : Treatment} (staysBelow : descend.StaysWithin limit depth) :
    Treatment.StaysWithin limit depth (treatNode context descend again) := by
  intro level store node leveled bounded
  have descends := staysBelow level store node leveled bounded
  -- a node that is there keeps its level while what is below it is treated
  have andThen {rule : Treatment} (ruleStays : rule.StaysWithin limit depth) {payload : Payload}
      (found : store.payload? node = some payload) :
      StaysWithin limit (do descend node; rule node) level store fun _ _ => True := by
    refine descends.bind fun _ changed later _ leveledLater agrees _ => ?_
    refine ruleStays later changed node leveledLater fun id member => ?_
    cases member
    obtain ⟨_, foundNode, _⟩ := Option.map_eq_some_iff.mp found
    rw [agrees id (lt_size_of_node? foundNode)]
    exact bounded id rfl
  rw [treatNode]
  refine .bind_of_run (run_get store) ?_
  split
  · rename_i found
    exact andThen (treatAccess_staysWithin stays inside) found
  · rename_i found
    exact andThen (treatCast_staysWithin stays inside) found
  · rename_i operator found
    split
    · exact andThen (treatAssignment_staysWithin stays inside) found
    · exact descends.bind fun _ _ _ _ leveledLater _ _ => .pure leveledLater trivial
  all_goals first | exact descends | exact .pure leveled trivial

end Rules

end Edit

/-! ## The walk over the children -/

namespace Branch

variable {store changed : Store}

/-- While a child is treated, the sibling after it stays where it is. -/
theorem Simulates.place?_nextSibling
    {edit : Edit.Treatment} {relation : Option Frame → Branch → Branch → Prop}
    (simulates : Simulates False 0 edit relation) (wellFormed : store.WellFormed) {child : NodeId}
    {place : Place} (placed : store.place? (some child) = some place)
    (run : (edit (some child)).run store = (.ok (), changed)) :
    ∀ next ∈ store.nextSibling (some child), ∃ role,
      store.place? (some next) = some ⟨place.parent, role⟩ ∧
      changed.place? (some next) = some ⟨place.parent, role⟩ := by
  intro next isNext
  obtain ⟨frame, frames, branch, hosted, rfl, rfl⟩ := exists_hosted_of_place? wellFormed placed
  rw [hosted.nextSibling_eq wellFormed] at isNext
  obtain ⟨entry, isHead, rfl⟩ := Option.map_eq_some_iff.mp isNext
  have isAfter : entry ∈ frame.after := List.mem_of_mem_head? isHead
  have here : store.place? (some entry.2.id) = some ⟨frame.parent, entry.1⟩ :=
    hosted.outer.held.place?_of_mem_children wellFormed (mem_after_children isAfter branch)
  obtain ⟨other, becomes, _⟩ :=
    (simulates store _ branch wellFormed (Nat.zero_le _) hosted).of_ok run
  have inAfter : entry.2.id ∈ idsOfAll frame.after :=
    mem_idsOfAll.mpr ⟨entry, isAfter, id_mem_ids _⟩
  refine ⟨entry.1, here, (becomes.keeps.place?_eq (Store.lt_size_of_place? here) ?_).trans here⟩
  rintro (inBranch | isParent)
  · exact hosted.not_mem_ids_of_mem_idsAround wellFormed
      (mem_idsAround_cons.mpr (Or.inr (Or.inr (Or.inl inAfter)))) inBranch
  · rw [gapOf_cons] at isParent
    exact (hosted.parent_not_mem_siblings wellFormed).2 (isParent ▸ inAfter)

end Branch

namespace Edit

open Store

variable {level : NodeId → Nat} {limit depth : Nat} {store : Store} {edit : Treatment}
  {relation : Option Frame → Branch → Branch → Prop}

/-- A walk over siblings of which the first lies at most one level beyond a depth. -/
theorem visitFrom_staysWithin
    (stays : edit.StaysWithin limit (depth + 1))
    (simulates : Branch.Simulates False 0 edit relation) (fuel : Nat)
    (leveled : store.Leveled level) {child : NodeRef}
    (placed : ∀ id ∈ child, ∃ place, store.place? (some id) = some place ∧
      level place.parent ≤ depth) :
    StaysWithin limit (visitFrom edit fuel child) level store fun _ _ => True := by
  induction fuel generalizing store level child with
  | zero =>
      exact .pure leveled trivial
  | succ fuel inductionHypothesis =>
      cases child with
      | none =>
          exact .pure leveled trivial
      | some id =>
          obtain ⟨place, here, shallow⟩ := placed id rfl
          have near := leveled.near id place here
          rw [visitFrom]
          refine .bind_of_run (run_ask _ store) ((stays level store (some id) leveled ?_).bind ?_)
          · rintro other ⟨⟩
            exact Nat.le_trans near.2 (Nat.succ_le_succ shallow)
          · intro _ changed later run leveledLater agrees _
            refine inductionHypothesis leveledLater fun next isNext => ?_
            obtain ⟨role, _, after⟩ :=
              simulates.place?_nextSibling leveled.wellFormed here run next isNext
            refine ⟨_, after, ?_⟩
            rw [agrees _ (leveled.wellFormed.parent_lt_size here)]
            exact shallow

theorem visitChildren_staysWithin
    (stays : edit.StaysWithin limit (depth + 1))
    (simulates : Branch.Simulates False 0 edit relation) :
    Treatment.StaysWithin limit depth (visitChildren edit) := by
  intro level store node leveled bounded
  refine .of_run_eq (run_visitChildren edit node store) ?_
  refine visitFrom_staysWithin stays simulates _ leveled fun child isFirst => ?_
  cases node with
  | none =>
      cases isFirst
  | some id =>
      obtain ⟨place, placed, rfl⟩ :=
        leveled.wellFormed.mem_children_iff.mp (List.mem_of_mem_head? isFirst)
      exact ⟨place, placed, bounded place.parent rfl⟩

/-- The count of levels and the depth together stay below the limit. -/
theorem treatWithin_staysWithin (context : Context) {fuel : Nat} (enough : fuel + depth < limit) :
    Treatment.StaysWithin limit depth (treatWithin context fuel) := by
  induction fuel generalizing depth with
  | zero =>
      have stops (depth : Nat) : Treatment.StaysWithin limit depth fun _ => pure () :=
        fun _ _ _ leveled _ => .pure leveled trivial
      exact treatNode_staysWithin (stops (depth + 1)) (by omega) (stops depth)
  | succ fuel inductionHypothesis =>
      have again : Treatment.StaysWithin limit (depth + 1) (treatWithin context fuel) :=
        inductionHypothesis (by omega)
      exact treatNode_staysWithin again (by omega)
        (visitChildren_staysWithin again (Branch.simulates_treatWithin fuel))

end Edit

/-! ## Distances from the root -/

namespace Store

variable {store : Store} {root : NodeRef} {distance other : Nat} {id : NodeId}

/-- The node lies so many levels below the root. -/
inductive LiesBelow (store : Store) : (root : NodeRef) → (distance : Nat) → NodeId → Prop
  | here {id : NodeId} : LiesBelow store (some id) 0 id
  | child {root : NodeRef} {distance : Nat} {id : NodeId} {place : Place} :
      store.place? (some id) = some place → LiesBelow store root distance place.parent →
      LiesBelow store root (distance + 1) id

theorem LiesBelow.above
    {top : NodeId} (below : store.LiesBelow (some top) distance id) :
    store.Above top id := by
  generalize isRoot : some top = root at below
  induction below with
  | here =>
      cases isRoot
      exact .refl
  | child placed _ inductionHypothesis =>
      exact .step placed (inductionHypothesis isRoot)

/-- The distance is unique. -/
theorem LiesBelow.unique
    (below : store.LiesBelow root distance id) (wellFormed : store.WellFormed)
    (alsoBelow : store.LiesBelow root other id) :
    other = distance := by
  induction below generalizing other with
  | here =>
      cases alsoBelow with
      | here =>
          rfl
      | child placed below =>
          exact absurd below.above (wellFormed.not_above_parent placed)
  | child placed below inductionHypothesis =>
      cases alsoBelow with
      | here =>
          exact absurd below.above (wellFormed.not_above_parent placed)
      | child otherPlaced otherBelow =>
          rw [placed] at otherPlaced
          cases otherPlaced
          rw [inductionHypothesis otherBelow]

open Classical in
/-- The distance of a node from the root, and zero for a node that does not lie below it. -/
noncomputable def distanceFrom (store : Store) (root : NodeRef) (id : NodeId) : Nat :=
  if below : ∃ distance, store.LiesBelow root distance id then below.choose else 0

theorem distanceFrom_eq
    (wellFormed : store.WellFormed) (below : store.LiesBelow root distance id) :
    store.distanceFrom root id = distance := by
  have exists_distance : ∃ distance, store.LiesBelow root distance id := ⟨distance, below⟩
  rw [distanceFrom, dif_pos exists_distance]
  exact below.unique wellFormed exists_distance.choose_spec

theorem distanceFrom_eq_zero (notBelow : ∀ distance, ¬ store.LiesBelow root distance id) :
    store.distanceFrom root id = 0 := by
  rw [distanceFrom, dif_neg (not_exists.mpr notBelow)]

/-- The distances from a root are levels. -/
theorem WellFormed.leveled_distanceFrom (wellFormed : store.WellFormed) (root : NodeRef) :
    store.Leveled (store.distanceFrom root) := by
  refine ⟨wellFormed, fun id place placed => ?_⟩
  by_cases below : ∃ distance, store.LiesBelow root distance place.parent
  · obtain ⟨distance, below⟩ := below
    rw [distanceFrom_eq wellFormed below, distanceFrom_eq wellFormed (.child placed below)]
    exact ⟨Nat.le_succ _, Nat.le_refl _⟩
  · rw [not_exists] at below
    rw [distanceFrom_eq_zero below]
    refine ⟨Nat.zero_le _, ?_⟩
    by_cases isBelow : ∃ distance, store.LiesBelow root distance id
    · obtain ⟨distance, isBelow⟩ := isBelow
      rw [distanceFrom_eq wellFormed isBelow]
      cases isBelow with
      | here =>
          exact Nat.zero_le _
      | child otherPlaced otherBelow =>
          rw [placed] at otherPlaced
          cases otherPlaced
          exact absurd otherBelow (below _)
    · rw [distanceFrom_eq_zero (not_exists.mp isBelow)]
      exact Nat.zero_le _

end Store

namespace Edit

/-- The pass succeeds, and of the nodes below the root it changes none that lies more than one level
beyond the depth limit: not what the node is, not its annotations, its place or its children. -/
theorem insertConversions_keepsBeyond
    (context : Context) (root : NodeRef) {store : Store} (wellFormed : store.WellFormed) :
    ∃ changed, (insertConversions context root).run store = (.ok (), changed) ∧
      ∀ id distance, store.LiesBelow root distance id →
        context.settings.maxDepth.toNat + 1 < distance →
        changed.node? (some id) = store.node? (some id) := by
  have succeeds : ∃ changed, (insertConversions context root).run store = (.ok (), changed) := by
    cases found : store.node? root with
    | none =>
        exact ⟨store, run_insertConversions_of_missing found⟩
    | some node =>
        cases root with
        | none =>
            cases found
        | some id =>
            obtain ⟨frames, branch, hosted, rfl⟩ :=
              Branch.exists_hosted wellFormed (Store.lt_size_of_node? found)
            obtain ⟨_, changed, run, _⟩ := run_insertConversions wellFormed hosted
            exact ⟨changed, run⟩
  obtain ⟨changed, run⟩ := succeeds
  refine ⟨changed, run, fun id distance below far => ?_⟩
  have stays : Treatment.StaysWithin (context.settings.maxDepth.toNat + 1) 0
      (treatWithin context context.settings.maxDepth.toNat) :=
    treatWithin_staysWithin context (Nat.lt_succ_self _)
  obtain ⟨_, _, _, keeps, _⟩ :=
    stays _ store root (wellFormed.leveled_distanceFrom root) fun top isRoot => by
      cases isRoot
      exact Nat.le_of_eq (Store.distanceFrom_eq wellFormed .here)
  rw [insertConversions] at run
  rw [run] at keeps
  cases below with
  | here =>
      exact absurd far (Nat.not_lt_zero _)
  | child placed below =>
      refine keeps.node_eq id (Store.lt_size_of_place? placed) ?_
      rw [Store.distanceFrom_eq wellFormed (.child placed below)]
      exact Nat.not_le_of_lt far

/-- In the block `{ (boolean) 1; }` the number lies three levels down, so a limit of one level keeps
it out of reach. -/
theorem insertConversions_keepsBeyond_of_number :
    let store := ((do
        let number ← mkLiteral (.int 1)
        let type ← mkNamedType "boolean" []
        let cast ← mkCast (some type) (some number)
        let statement ← mkStatement (some cast)
        mkBlock [some statement] : Edit NodeId).run Store.empty).2
    let context := Context.ofSettings .standard { Settings.standard with maxDepth := 1 }
    ∃ changed, (insertConversions context (some 6)).run store = (.ok (), changed) ∧
      store.LiesBelow (some 6) 3 0 ∧ changed.node? (some 0) = store.node? (some 0) := by
  intro store context
  have wellFormed : store.WellFormed := by
    refine Structural.keepsWellFormed ?_ _ Store.wellFormed_empty
    exact .bind (.mkLiteral _) fun _ => .bind (.mkNamedType _ _) fun _ =>
      .bind (.mkCast _ _) fun _ => .bind (.mkStatement _) fun _ => .mkBlock _
  have number : store.place? (some 0) = some ⟨2, .expression⟩ := rfl
  have cast : store.place? (some 2) = some ⟨5, .expression⟩ := rfl
  have statement : store.place? (some 5) = some ⟨6, .statement⟩ := rfl
  have below : store.LiesBelow (some 6) 3 0 :=
    .child number (.child cast (.child statement .here))
  obtain ⟨changed, run, keeps⟩ := insertConversions_keepsBeyond context (some 6) wellFormed
  exact ⟨changed, run, below, keeps 0 3 below (by decide)⟩

end Edit

end TypedJava
