import TypedJava.Proofs.ConversionPass.Visited

/-! # Settled trees

A tree is settled if no rule of the pass applies at any node that the pass visits. Exactly the
settled trees are left alone by the pass. -/

namespace TypedJava

namespace Branch

/-- No rule of the pass applies to the node at the top. -/
structure SettledAt (context : Context) (inherited : Option Member) (branch : Branch) : Prop where
  access : branch.payload.handling = .access → ∀ member receiver,
    branch.annotations.member.or inherited = some member →
    branch.typeIn? context .target = some receiver →
    context.catalog.isSubtype receiver member.declaringType = true
  cast : branch.payload.handling = .cast → ∀ target source,
    branch.typeIn? context .type = some target → branch.typeIn? context .expression = some source →
    context.catalog.conversion target source ≠ .none
  assignment : branch.payload.handling = .assignment → ∀ target source,
    branch.typeIn? context .left = some target → branch.typeIn? context .right = some source →
    (context.catalog.conversion target source).isExplicit = false ∧
      ¬ becomesNumber context.catalog target source ∧
      ∀ kind, ¬ becomesTruth context.catalog target source kind

/-! ## The pass leaves a settled tree alone -/

section Stays

variable {store : Store} {frames : List Frame} {branch : Branch} {context : Context}
  {inherited : Option Member} {again : Edit.Treatment}

theorem SettledAt.run_treatCast
    (settled : branch.SettledAt context inherited) (isCast : branch.payload.handling = .cast)
    (wellFormed : store.WellFormed) (held : branch.HeldIn store) :
    (Edit.treatCast context again (some branch.id)).run store = (.ok (), store) := by
  rw [Edit.treatCast, Edit.run_bind_ok (Edit.run_get store)]
  simp only
  rw [held.typeOf?_childIn wellFormed, held.typeOf?_childIn wellFormed]
  cases targetType : branch.typeIn? context .type with
  | none =>
      rfl
  | some target =>
      cases sourceType : branch.typeIn? context .expression with
      | none =>
          rfl
      | some source =>
          simp only
          rw [if_neg (settled.cast isCast target source targetType sourceType)]
          rfl

theorem SettledAt.run_treatAccess
    (settled : branch.SettledAt context (inheritedFrom frames.head?))
    (isAccess : branch.payload.handling = .access) (wellFormed : store.WellFormed)
    (hosted : Hosted store frames branch) :
    (Edit.treatAccess context again (some branch.id)).run store = (.ok (), store) := by
  rw [Edit.treatAccess, Edit.run_bind_ok (Edit.run_get store)]
  simp only
  rw [hosted.accessedMember?_eq wellFormed, hosted.held.typeOf?_childIn wellFormed]
  cases accessed : branch.accessedMember? frames.head? with
  | none =>
      rfl
  | some member =>
      cases targetType : branch.typeIn? context .target with
      | none =>
          rfl
      | some receiver =>
          cases context.typeSyntax with
          | none =>
              rfl
          | some options =>
              simp only
              rw [if_pos (settled.access isAccess member receiver accessed targetType)]
              rfl

theorem SettledAt.run_treatAssignment
    (settled : branch.SettledAt context inherited)
    (isAssignment : branch.payload.handling = .assignment) (wellFormed : store.WellFormed)
    (held : branch.HeldIn store) :
    (Edit.treatAssignment context again (some branch.id)).run store = (.ok (), store) := by
  rw [Edit.treatAssignment, Edit.run_bind_ok (Edit.run_get store)]
  simp only
  rw [held.typeOf?_childIn wellFormed, held.typeOf?_childIn wellFormed]
  cases leftType : branch.typeIn? context .left with
  | none =>
      rfl
  | some target =>
      cases rightType : branch.typeIn? context .right with
      | none =>
          rfl
      | some source =>
          obtain ⟨implicit, noNumber, noTruth⟩ :=
            settled.assignment isAssignment target source leftType rightType
          have value (node : NodeRef) :
              (convertValue context again target source node).run store = (.ok (), store) := by
            have condition : ¬ (context.catalog.underlyingKind? source == some .boolean &&
                target.isNumeric) = true := by
              simpa [becomesNumber] using noNumber
            have filtered : (context.catalog.underlyingKind? source).filter
                (fun kind => target.isBoolean && kind.isNumeric) = none := by
              rw [Option.filter_eq_none_iff]
              intro kind sameKind both
              rw [Bool.and_eq_true] at both
              exact noTruth kind ⟨sameKind, both.2, both.1⟩
            rw [convertValue, if_neg condition, filtered]
            rfl
          cases context.typeSyntax with
          | none =>
              exact value _
          | some options =>
              simp only
              rw [implicit]
              exact value _

theorem SettledAt.run_treatNode
    (settled : branch.SettledAt context (inheritedFrom frames.head?)) {descend : Edit.Treatment}
    (wellFormed : store.WellFormed) (hosted : Hosted store frames branch)
    (below : branch.payload.handling ≠ .leave →
      (descend (some branch.id)).run store = (.ok (), store)) :
    (Edit.treatNode context descend again (some branch.id)).run store = (.ok (), store) := by
  rw [Edit.treatNode, Edit.run_bind_ok (Edit.run_get store), hosted.held.payload?_eq]
  cases payload : branch.payload with
  | memberReference name =>
      have isAccess : branch.payload.handling = .access := by rw [payload]; rfl
      simp only
      rw [Edit.run_bind_ok (below (by simp [isAccess]))]
      exact settled.run_treatAccess isAccess wellFormed hosted
  | cast =>
      have isCast : branch.payload.handling = .cast := by rw [payload]; rfl
      simp only
      rw [Edit.run_bind_ok (below (by simp [isCast]))]
      exact settled.run_treatCast isCast wellFormed hosted.held
  | assignment operator =>
      by_cases simple : operator = .assign
      · subst simple
        have isAssignment : branch.payload.handling = .assignment := by rw [payload]; rfl
        simp only
        rw [Edit.run_bind_ok (below (by simp [isAssignment]))]
        exact settled.run_treatAssignment isAssignment wellFormed hosted.held
      · have isBelow : branch.payload.handling = .descend := by
          rw [payload, Payload.handling, if_neg simple]
        simp only
        rw [Edit.run_bind_ok (below (by simp [isBelow])), if_neg simple]
        rfl
  | _ =>
      first
      | exact below (by rw [payload]; simp [Payload.handling])
      | rfl

/-- A walk over children each of which a visit leaves alone. -/
theorem run_visitFrom_of_stays
    {visit : Edit.Treatment} {parent : NodeId} {payload : Payload} {annotations : Annotations}
    (done waiting : List (Role × Branch)) {fuel : Nat} (wellFormed : store.WellFormed)
    (hosted : Hosted store frames (.node parent payload annotations (done ++ waiting)))
    (stays : ∀ entry ∈ waiting, (visit (some entry.2.id)).run store = (.ok (), store)) :
    (Edit.visitFrom visit fuel (waiting.head?.map fun entry => entry.2.id)).run store =
      (.ok (), store) := by
  induction waiting generalizing done fuel with
  | nil =>
      cases fuel <;> rfl
  | cons entry waiting inductionHypothesis =>
      obtain ⟨role, child⟩ := entry
      cases fuel with
      | zero =>
          rfl
      | succ fuel =>
          have childHosted :
              Hosted store (⟨parent, payload, annotations, role, done, waiting⟩ :: frames) child :=
            ⟨hosted.whole, hosted.unplaced⟩
          have next : store.nextSibling (some child.id) =
              waiting.head?.map fun entry => entry.2.id :=
            childHosted.nextSibling_eq wellFormed
          have here := stays (role, child) List.mem_cons_self
          rw [List.head?_cons, Option.map_some, Edit.visitFrom,
            Edit.run_bind_ok (Edit.run_ask _ store), next, Edit.run_bind_ok here]
          refine inductionHypothesis (done ++ [(role, child)]) ?_ fun entry member =>
            stays entry (List.mem_cons_of_mem _ member)
          rwa [List.append_assoc, List.singleton_append]

theorem run_visitChildren_of_stays
    {visit : Edit.Treatment} (wellFormed : store.WellFormed) (hosted : Hosted store frames branch)
    (stays : ∀ entry ∈ branch.children, (visit (some entry.2.id)).run store = (.ok (), store)) :
    (Edit.visitChildren visit (some branch.id)).run store = (.ok (), store) := by
  obtain ⟨parent, payload, annotations, children⟩ := branch
  have first : store.firstChild (some parent) = children.head?.map fun entry => entry.2.id := by
    have listed : store.children (some parent) = children.map fun entry => entry.2.id :=
      hosted.held.store_children_eq
    rw [Store.firstChild, listed, List.head?_map]
  rw [Edit.run_visitChildren, Branch.id, first]
  exact run_visitFrom_of_stays [] children wellFormed hosted stays

/-- The pass leaves a settled branch alone. -/
theorem Everywhere.run_treatWithin
    (settled : Everywhere (SettledAt context) (inheritedFrom frames.head?) branch) (fuel : Nat)
    (wellFormed : store.WellFormed) (hosted : Hosted store frames branch) :
    (Edit.treatWithin context fuel (some branch.id)).run store = (.ok (), store) := by
  induction fuel generalizing frames branch with
  | zero =>
      exact settled.top.run_treatNode wellFormed hosted fun _ => rfl
  | succ fuel inductionHypothesis =>
      refine settled.top.run_treatNode wellFormed hosted fun visited => ?_
      refine run_visitChildren_of_stays wellFormed hosted fun entry member => ?_
      obtain ⟨before, after, split⟩ := List.append_of_mem member
      obtain ⟨top, payload, annotations, children⟩ := branch
      cases split
      let frame : Frame := ⟨top, payload, annotations, entry.1, before, after⟩
      have childHosted : Hosted store (frame :: frames) entry.2 := ⟨hosted.whole, hosted.unplaced⟩
      have childSettled : Everywhere (SettledAt context)
          (inheritedFrom (frame :: frames).head?) entry.2 :=
        settled.of_mem_children visited member
      exact inductionHypothesis childSettled childHosted

end Stays

/-! ## Whatever is not settled gets new nodes -/

/-- Some node of a branch is new. -/
def HasNew (bound : Nat) (branch : Branch) : Prop :=
  ∃ id ∈ branch.ids, bound ≤ id

theorem hasNew_of_id {bound : Nat} {branch : Branch} (new : bound ≤ branch.id) :
    branch.HasNew bound :=
  ⟨branch.id, id_mem_ids branch, new⟩

theorem HasNew.of_mem_children
    {bound : Nat} {branch : Branch} {entry : Role × Branch} (hasNew : entry.2.HasNew bound)
    (member : entry ∈ branch.children) :
    branch.HasNew bound := by
  obtain ⟨id, inside, new⟩ := hasNew
  exact ⟨id, mem_ids_of_mem_children member inside, new⟩

theorem HasNew.fill
    {bound : Nat} {branch : Branch} (hasNew : branch.HasNew bound) (frame : Frame) :
    (frame.fill branch).HasNew bound :=
  HasNew.of_mem_children hasNew (frame.mem_children_fill branch)

section NewNodes

variable {context : Context} {bound : Nat}
  {again : Option Frame → Branch → Branch → Prop}

theorem WrapsInCast.le_id
    {options : TypeSyntaxOptions} {type : Ty} {operand cast : Branch}
    (wraps : WrapsInCast context bound options type operand cast) :
    bound ≤ cast.id := by
  obtain ⟨_, new, _, _⟩ := wraps
  exact new

theorem IsConditionalOf.le_id
    {one zero : Literal} {condition conditional : Branch}
    (isConditional : IsConditionalOf bound one zero condition conditional) :
    bound ≤ conditional.id := by
  obtain ⟨new, _, _⟩ := isConditional
  exact new

theorem IsComparisonOf.le_id
    {zero : Literal} {operand comparison : Branch}
    (isComparison : IsComparisonOf bound zero operand comparison) :
    bound ≤ comparison.id := by
  obtain ⟨new, _⟩ := isComparison
  exact new

/-- The node at the top stays or gives way to a new one. -/
def KeepsTop (bound : Nat) (branch result : Branch) : Prop :=
  result.id = branch.id ∨ bound ≤ result.id

theorem FinishesConditional.le_id
    (keepsTop : ∀ surroundings branch result, again surroundings branch result →
      KeepsTop bound branch result)
    {frame : Frame} {target : Ty} {conditional result : Branch}
    (finishes : FinishesConditional context bound again frame target conditional result)
    (new : bound ≤ conditional.id) :
    bound ≤ result.id := by
  cases finishes with
  | wide _ related =>
      exact (keepsTop _ _ _ related).elim (fun same => same ▸ new) fun new => new
  | unwritten _ _ =>
      exact new
  | needless _ _ _ _ related =>
      exact (keepsTop _ _ _ related).elim (fun same => same ▸ new) fun new => new
  | needed _ _ wraps _ related =>
      exact (keepsTop _ _ _ related).elim (fun same => same ▸ wraps.le_id) fun new => new

/-- A rule leaves a node alone only where it does not apply. -/
def Rests (context : Context) (bound : Nat) (surroundings : Option Frame)
    (middle result : Branch) : Prop :=
  (result = middle ∧ middle.SettledAt context (inheritedFrom surroundings)) ∨ result.HasNew bound

section Rules

variable (keepsTop : ∀ surroundings branch result, again surroundings branch result →
    KeepsTop bound branch result)
  (written : context.typeSyntax ≠ none)

include keepsTop written

theorem TreatsAccess.rests
    {surroundings : Option Frame} {middle result : Branch}
    (isAccess : middle.payload.handling = .access)
    (treats : TreatsAccess context bound again surroundings middle result) :
    Rests context bound surroundings middle result := by
  have settledAt (settled : ∀ member receiver, middle.accessedMember? surroundings = some member →
      middle.typeIn? context .target = some receiver →
      context.catalog.isSubtype receiver member.declaringType = true) :
      middle.SettledAt context (inheritedFrom surroundings) :=
    ⟨fun _ => settled, fun isCast => by simp [isAccess] at isCast,
      fun isAssignment => by simp [isAccess] at isAssignment⟩
  cases treats with
  | unknown missing =>
      refine Or.inl ⟨rfl, settledAt fun member receiver accessed known => ?_⟩
      rcases missing with none | none | none
      · simp [none] at accessed
      · simp [none] at known
      · exact absurd none written
  | settled accessed known isSubtype =>
      refine Or.inl ⟨rfl, settledAt fun member receiver otherAccessed otherKnown => ?_⟩
      rw [accessed] at otherAccessed
      rw [known] at otherKnown
      cases otherAccessed
      cases otherKnown
      exact isSubtype
  | wrapped _ _ _ _ _ wraps related =>
      have new := (keepsTop _ _ _ related).elim (fun same => same ▸ wraps.le_id) fun new => new
      exact Or.inr ((hasNew_of_id new).fill _)

theorem TreatsCast.rests
    {surroundings : Option Frame} {middle result : Branch} (attached : surroundings ≠ none)
    (isCast : middle.payload.handling = .cast)
    (treats : TreatsCast context bound again surroundings middle result) :
    Rests context bound surroundings middle result := by
  have settledAt (settled : ∀ target source, middle.typeIn? context .type = some target →
      middle.typeIn? context .expression = some source →
      context.catalog.conversion target source ≠ .none) :
      middle.SettledAt context (inheritedFrom surroundings) :=
    ⟨fun isAccess => by simp [isCast] at isAccess, fun _ => settled,
      fun isAssignment => by simp [isCast] at isAssignment⟩
  cases treats with
  | unknown missing =>
      refine Or.inl ⟨rfl, settledAt fun target source targetKnown sourceKnown => ?_⟩
      rcases missing with none | none
      · simp [none] at targetKnown
      · simp [none] at sourceKnown
  | legal targetKnown sourceKnown legal =>
      refine Or.inl ⟨rfl, settledAt fun target source otherTarget otherSource => ?_⟩
      rw [targetKnown] at otherTarget
      rw [sourceKnown] at otherSource
      cases otherTarget
      cases otherSource
      exact legal
  | detached _ _ _ none _ =>
      exact absurd none attached
  | noLiterals _ _ _ number none =>
      exact absurd none (truthLiterals?_ne_none number.2)
  | toNumber _ _ _ _ _ _ _ isConditional finishes =>
      exact Or.inr (hasNew_of_id (finishes.le_id keepsTop isConditional.le_id))
  | toTruth _ _ _ _ _ _ isComparison related =>
      have new := (keepsTop _ _ _ related).elim (fun same => same ▸ isComparison.le_id)
        fun new => new
      exact Or.inr (hasNew_of_id new)
  | unwritten _ _ _ none =>
      exact absurd none written
  | detour _ _ _ _ _ _ _ wraps related =>
      have new := (keepsTop _ _ _ related).elim (fun same => same ▸ wraps.le_id) fun new => new
      exact Or.inr ((hasNew_of_id new).fill _)

theorem TreatsAssignment.rests
    {surroundings : Option Frame} {middle result : Branch}
    (isAssignment : middle.payload.handling = .assignment)
    (treats : TreatsAssignment context bound again middle result) :
    Rests context bound surroundings middle result := by
  have settledAt (settled : ∀ target source, middle.typeIn? context .left = some target →
      middle.typeIn? context .right = some source →
      (context.catalog.conversion target source).isExplicit = false ∧
        ¬ becomesNumber context.catalog target source ∧
        ∀ kind, ¬ becomesTruth context.catalog target source kind) :
      middle.SettledAt context (inheritedFrom surroundings) :=
    ⟨fun isAccess => by simp [isAssignment] at isAccess,
      fun isCast => by simp [isAssignment] at isCast, fun _ => settled⟩
  cases treats with
  | unknown missing =>
      refine Or.inl ⟨rfl, settledAt fun target source targetKnown sourceKnown => ?_⟩
      rcases missing with none | none
      · simp [none] at targetKnown
      · simp [none] at sourceKnown
  | plain isFirst leftType sourceType casts noNumber noTruth =>
      cases casts with
      | kept implicit =>
          refine Or.inl ⟨rfl, settledAt fun target source otherLeft otherRight => ?_⟩
          rw [leftType] at otherLeft
          rw [typeIn?_fill isFirst, sourceType] at otherRight
          cases otherLeft
          cases otherRight
          exact ⟨implicit.resolve_right written, noNumber, noTruth⟩
      | cast _ _ wraps =>
          exact Or.inr ((hasNew_of_id wraps.le_id).fill _)
  | noLiterals _ _ _ _ number none =>
      exact absurd none (truthLiterals?_ne_none number.2)
  | toNumber _ _ _ _ _ _ isConditional finishes =>
      exact Or.inr ((hasNew_of_id (finishes.le_id keepsTop isConditional.le_id)).fill _)
  | toTruth _ _ _ _ _ isComparison related =>
      have new := (keepsTop _ _ _ related).elim (fun same => same ▸ isComparison.le_id)
        fun new => new
      exact Or.inr ((hasNew_of_id new).fill _)

end Rules

theorem TreatsNode.keepsTop
    {below : Branch → Branch → Prop} {surroundings : Option Frame} {branch result : Branch}
    (keepsTop : ∀ surroundings branch result, again surroundings branch result →
      KeepsTop bound branch result)
    (descends : ∀ branch middle, below branch middle → middle.id = branch.id)
    (treats : TreatsNode context bound again below surroundings branch result) :
    KeepsTop bound branch result := by
  cases treats with
  | leave _ =>
      exact Or.inl rfl
  | descend _ related =>
      exact Or.inl (descends _ _ related)
  | access _ related treats =>
      rw [KeepsTop, ← descends _ _ related]
      cases treats <;> exact Or.inl rfl
  | cast _ related treats =>
      rw [KeepsTop, ← descends _ _ related]
      cases treats with
      | toNumber _ _ _ _ _ _ _ isConditional finishes =>
          exact Or.inr (finishes.le_id keepsTop isConditional.le_id)
      | toTruth _ _ _ _ _ _ isComparison related =>
          exact Or.inr ((keepsTop _ _ _ related).elim (fun same => same ▸ isComparison.le_id)
            fun new => new)
      | _ =>
          exact Or.inl rfl
  | assignment _ related treats =>
      rw [KeepsTop, ← descends _ _ related]
      cases treats <;> exact Or.inl rfl

theorem Converts.keepsTop
    {mayCut : Prop} {fuel : Nat} {surroundings : Option Frame} {branch result : Branch}
    (converts : Converts context bound mayCut fuel surroundings branch result) :
    KeepsTop bound branch result := by
  induction fuel generalizing surroundings branch result with
  | zero =>
      refine TreatsNode.keepsTop ?_ ?_ converts
      · rintro _ branch _ ⟨_, rfl⟩
        exact Or.inl rfl
      · rintro branch _ ⟨_, rfl⟩
        rfl
  | succ fuel inductionHypothesis =>
      refine TreatsNode.keepsTop (fun _ _ _ => inductionHypothesis) ?_ converts
      rintro branch _ ⟨_⟩
      rfl

/-- A branch either is settled and stays as it is, or it gets new nodes. -/
def IsLeftAlone (context : Context) (bound : Nat) (inherited : Option Member)
    (branch result : Branch) : Prop :=
  (result = branch ∧ Everywhere (SettledAt context) inherited branch) ∨ result.HasNew bound

/-- What holds of the children holds of the node, if no rule applies to it. -/
theorem TreatsNode.isLeftAlone
    {below : Branch → Branch → Prop} {surroundings : Option Frame} {branch result : Branch}
    (keepsTop : ∀ surroundings branch result, again surroundings branch result →
      KeepsTop bound branch result)
    (written : context.typeSyntax ≠ none)
    (attached : surroundings ≠ none ∨ branch.payload.handling ≠ .cast)
    (descends : ∀ middle, below branch middle → middle.payload = branch.payload ∧
      ((middle = branch ∧ ∀ entry ∈ branch.children,
        Everywhere (SettledAt context) (branch.passedOn entry.1) entry.2) ∨ middle.HasNew bound))
    (treats : TreatsNode context bound again below surroundings branch result) :
    IsLeftAlone context bound (inheritedFrom surroundings) branch result := by
  have rested {middle : Branch} (related : below branch middle)
      (rests : Rests context bound surroundings middle result) :
      IsLeftAlone context bound (inheritedFrom surroundings) branch result := by
    rcases rests with ⟨rfl, settled⟩ | hasNew
    · rcases (descends _ related).2 with ⟨rfl, children⟩ | hasNew
      · exact Or.inl ⟨rfl, .mk settled fun _ => children⟩
      · exact Or.inr hasNew
    · exact Or.inr hasNew
  have plain {middle : Branch} (handling : Handling) (isHandling : branch.payload.handling = handling)
      (noAccess : handling ≠ .access) (noCast : handling ≠ .cast)
      (noAssignment : handling ≠ .assignment) (same : middle.payload = branch.payload) :
      middle.SettledAt context (inheritedFrom surroundings) := by
    rw [← same] at isHandling
    exact ⟨fun here => absurd (isHandling.symm.trans here) noAccess,
      fun here => absurd (isHandling.symm.trans here) noCast,
      fun here => absurd (isHandling.symm.trans here) noAssignment⟩
  cases treats with
  | leave isLeave =>
      have settled := plain .leave isLeave (by simp) (by simp) (by simp) (rfl : branch.payload = _)
      exact Or.inl ⟨rfl, .mk settled fun visited => absurd isLeave visited⟩
  | descend isDescend related =>
      have settled := plain .descend isDescend (by simp) (by simp) (by simp)
        (descends _ related).1
      exact rested related (Or.inl ⟨rfl, settled⟩)
  | access isAccess related treats =>
      rw [← (descends _ related).1] at isAccess
      exact rested related (treats.rests keepsTop written isAccess)
  | cast isCast related treats =>
      have here := attached.resolve_right fun other => other isCast
      rw [← (descends _ related).1] at isCast
      exact rested related (treats.rests keepsTop written here isCast)
  | assignment isAssignment related treats =>
      rw [← (descends _ related).1] at isAssignment
      exact rested related (treats.rests keepsTop written isAssignment)

private theorem children_left_alone
    (branch : Branch) {children visited : List (Role × Branch)}
    (pairwise : List.Forall₂ (fun entry other => other.1 = entry.1 ∧
      IsLeftAlone context bound (branch.passedOn entry.1) entry.2 other.2) children visited) :
    (visited = children ∧ ∀ entry ∈ children,
      Everywhere (SettledAt context) (branch.passedOn entry.1) entry.2) ∨
    ∃ entry ∈ visited, entry.2.HasNew bound := by
  induction pairwise with
  | nil =>
      exact Or.inl ⟨rfl, fun entry member => absurd member List.not_mem_nil⟩
  | @cons entry other rest others first _ inductionHypothesis =>
      obtain ⟨sameRole, ⟨sameChild, settled⟩ | hasNew⟩ := first
      · rcases inductionHypothesis with ⟨rfl, restSettled⟩ | ⟨found, member, hasNew⟩
        · refine Or.inl ⟨by rw [Prod.ext sameRole sameChild], fun found member => ?_⟩
          rcases List.mem_cons.mp member with rfl | later
          · exact settled
          · exact restSettled found later
        · exact Or.inr ⟨found, List.mem_cons_of_mem _ member, hasNew⟩
      · exact Or.inr ⟨other, List.mem_cons_self, hasNew⟩

/-- A complete run of the pass leaves a branch alone only if the branch is settled. -/
theorem Converts.isLeftAlone
    {fuel : Nat} {surroundings : Option Frame} {branch result : Branch}
    (written : context.typeSyntax ≠ none)
    (attached : surroundings ≠ none ∨ branch.payload.handling ≠ .cast)
    (converts : Converts context bound False fuel surroundings branch result) :
    IsLeftAlone context bound (inheritedFrom surroundings) branch result := by
  induction fuel generalizing surroundings branch result with
  | zero =>
      refine TreatsNode.isLeftAlone ?_ written attached ?_ converts
      · rintro _ _ _ ⟨impossible, _⟩
        exact impossible.elim
      · rintro _ ⟨impossible, _⟩
        exact impossible.elim
  | succ fuel inductionHypothesis =>
      refine TreatsNode.isLeftAlone (fun _ _ _ => Converts.keepsTop) written attached ?_ converts
      rintro _ ⟨visits⟩
      refine ⟨rfl, ?_⟩
      have each : ∀ role before after child changed, Converts context bound False fuel
          (some ⟨branch.id, branch.payload, branch.annotations, role, before, after⟩) child
          changed → IsLeftAlone context bound (branch.passedOn role) child changed :=
        fun role before after child changed related =>
          inductionHypothesis (Or.inl (Option.some_ne_none _)) related
      obtain ⟨visited, rfl, pairwise⟩ := visits.exists_pairwise each
      rcases children_left_alone branch pairwise with ⟨rfl, settled⟩ | hasNew
      · exact Or.inl ⟨by cases branch; rfl, settled⟩
      · obtain ⟨entry, member, hasNew⟩ := hasNew
        exact Or.inr (HasNew.of_mem_children hasNew member)

end NewNodes

end Branch

end TypedJava
