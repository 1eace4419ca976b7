import Mathlib.Logic.Relation
import TypedJava.Proofs.Conversion.Erasure
import TypedJava.Proofs.ConversionPass.Visits

/-! # Tracing the targets of member accesses

The pass treats a member access several times, first on its way down and then again below every cast
that it puts around something further out. Every rule keeps track of its target: it is the outcome
of treatments of the old target, or else the access has called for a cast, because at some point its
target was of a type outside the class that declares the member. -/

namespace TypedJava

namespace Catalog

/-! ## Types outside a use of a class -/

/-- A type is no subtype of a declaring type. If that is the use of a class, the walk from the type
to the class is too long for the subtype relation, or there is none, or it ends at a use with other
arguments. -/
structure FallsOutside (catalog : Catalog) (type declaring : Ty) : Prop where
  notSubtype : catalog.isSubtype type declaring = false
  reason : ∀ id formals, declaring = .classType id formals →
    catalog.viewWithin id supertypeLimit type = none ∨
      ∃ actuals, catalog.viewWithin id supertypeLimit type = some (.classType id actuals) ∧
        formals ≠ [] ∧ actuals ≠ [] ∧ actuals ≠ formals

theorem FallsOutside.of_isSubtype_eq_false
    {catalog : Catalog} {type declaring : Ty}
    (notSubtype : catalog.isSubtype type declaring = false) :
    catalog.FallsOutside type declaring := by
  refine ⟨notSubtype, ?_⟩
  rintro id formals rfl
  cases viewed : catalog.viewWithin id supertypeLimit type with
  | none =>
      exact Or.inl rfl
  | some view =>
      obtain ⟨actuals, rfl⟩ := exists_of_viewWithin viewed
      have misfits : ¬ (formals = [] ∨ actuals = [] ∨ actuals = formals) := by
        intro fits
        rw [isSubtype, isSubtypeWithin_of_viewWithin viewed fits] at notSubtype
        cases notSubtype
      rw [not_or, not_or] at misfits
      exact Or.inr ⟨actuals, rfl, misfits⟩

end Catalog

namespace Branch

/-! ## What becomes of a target -/

/-- One treatment of the target of an access. -/
def Treated (context : Context) (bound : Nat) (access : NodeId) (branch result : Branch) : Prop :=
  ∃ fuel frame, frame.place = ⟨access, .target⟩ ∧
    Converts context bound True fuel (some frame) branch result

end Branch

namespace Store

/-- The target of an access has a type after some number of treatments. -/
def ReceiverType (store : Store) (context : Context) (access : NodeId) (receiver : Ty) : Prop :=
  ∃ target stage : Branch, target.HeldIn store ∧
    store.childIn (some access) .target = some target.id ∧
    Relation.ReflTransGen (Branch.Treated context store.size access) target stage ∧
    stage.typeOf? context = some receiver

/-- An access calls for a cast of its target. -/
def CallsForCast (store : Store) (context : Context) (access : NodeId) : Prop :=
  ∃ member receiver, store.accessedMember? (some access) = some member ∧
    store.ReceiverType context access receiver ∧
    context.catalog.FallsOutside receiver member.declaringType

end Store

namespace Branch

/-- An access sees no other member than before, and its target is the outcome of treatments of the
old one unless the access calls for a cast. -/
structure Traced (context : Context) (store : Store) (inherited : Option Member)
    (branch : Branch) : Prop where
  member : branch.payload.handling = .access → ∀ member,
    branch.annotations.member.or inherited = some member →
    store.accessedMember? (some branch.id) = some member
  target : branch.payload.handling = .access → ∀ child, branch.child? .target = some child →
    ∃ target : Branch, target.HeldIn store ∧
      store.childIn (some branch.id) .target = some target.id ∧
      (Relation.ReflTransGen (Treated context store.size branch.id) target child ∨
        store.CallsForCast context branch.id)

/-- Every access in a branch is traced. In contrast to the nodes that the pass visits, this is also
about those below type syntax. -/
inductive TracedBelow (context : Context) (store : Store) : Option Member → Branch → Prop
  | mk {inherited : Option Member} {branch : Branch} :
      Traced context store inherited branch →
      (∀ entry ∈ branch.children, TracedBelow context store (branch.passedOn entry.1) entry.2) →
      TracedBelow context store inherited branch

variable {context : Context} {store : Store} {inherited : Option Member} {branch : Branch}

/-- An access that takes over no member sees no other one. -/
theorem Traced.alone (traced : Traced context store inherited branch) :
    Traced context store none branch := by
  refine ⟨fun isAccess member own => traced.member isAccess member ?_, traced.target⟩
  rw [Option.or_none] at own
  rw [own, Option.some_or]

theorem Traced.of_no_access (noAccess : branch.payload.handling ≠ .access) :
    Traced context store inherited branch :=
  ⟨fun isAccess => absurd isAccess noAccess, fun isAccess => absurd isAccess noAccess⟩

namespace TracedBelow

theorem top (traced : TracedBelow context store inherited branch) :
    Traced context store inherited branch := by
  cases traced with
  | mk top _ =>
      exact top

theorem of_mem_children
    (traced : TracedBelow context store inherited branch) {entry : Role × Branch}
    (member : entry ∈ branch.children) :
    TracedBelow context store (branch.passedOn entry.1) entry.2 := by
  cases traced with
  | mk _ children =>
      exact children entry member

theorem alone (traced : TracedBelow context store inherited branch) :
    TracedBelow context store none branch :=
  .mk traced.top.alone fun _ => traced.of_mem_children

theorem of_child?
    {role : Role} {child : Branch} (traced : TracedBelow context store inherited branch)
    (found : branch.child? role = some child) :
    TracedBelow context store none child := by
  obtain ⟨entry, foundEntry, rfl⟩ := Option.map_eq_some_iff.mp found
  exact (traced.of_mem_children (List.mem_of_find?_eq_some foundEntry)).alone

theorem of_no_access
    (noAccess : branch.payload.handling ≠ .access)
    (children : ∀ entry ∈ branch.children,
      TracedBelow context store (branch.passedOn entry.1) entry.2) :
    TracedBelow context store inherited branch :=
  .mk (.of_no_access noAccess) children

/-- A new node passes on no member. -/
theorem of_new
    {id : NodeId} {payload : Payload} {children : List (Role × Branch)}
    (noAccess : payload.handling ≠ .access)
    (each : ∀ entry ∈ children, TracedBelow context store none entry.2) :
    TracedBelow context store inherited (.node id payload .empty children) := by
  refine of_no_access noAccess fun entry member => ?_
  have nothing : (node id payload .empty children).passedOn entry.1 = none := ite_self none
  rw [nothing]
  exact each entry member

/-- A branch is exchanged in a gap. -/
theorem fill
    {frame : Frame} {other : Branch}
    (traced : TracedBelow context store inherited (frame.fill branch))
    (top : Traced context store inherited (frame.fill other))
    (child : TracedBelow context store (inheritedFrom (some frame)) other) :
    TracedBelow context store inherited (frame.fill other) := by
  refine .mk top fun entry member => ?_
  rcases List.mem_append.mp member with before | here
  · exact traced.of_mem_children (mem_before_children before branch)
  · rcases List.mem_cons.mp here with rfl | after
    · exact child
    · exact traced.of_mem_children (mem_after_children after branch)

/-- What is in the gap of a frame takes over what the frame passes on. -/
theorem of_fill
    {frame : Frame} (traced : TracedBelow context store inherited (frame.fill branch)) :
    TracedBelow context store (inheritedFrom (some frame)) branch :=
  traced.of_mem_children (frame.mem_children_fill branch)

/-- A branch in the gap of a node that is no access. -/
theorem fill_of_no_access
    {frame : Frame} {other : Branch}
    (traced : TracedBelow context store inherited (frame.fill branch))
    (noAccess : frame.payload.handling ≠ .access)
    (child : TracedBelow context store (inheritedFrom (some frame)) other) :
    TracedBelow context store inherited (frame.fill other) :=
  traced.fill (.of_no_access noAccess) child

/-- Every node of a traced branch is traced. -/
theorem exists_of_mem_ids
    {holder : Store} (traced : TracedBelow context store inherited branch)
    (held : branch.HeldIn holder) {id : NodeId} (member : id ∈ branch.ids) :
    ∃ inherited inner, inner.HeldIn holder ∧ inner.id = id ∧
      Traced context store inherited inner := by
  induction branch using Branch.induction generalizing inherited with
  | node top payload annotations children inductionHypothesis =>
      rw [ids_eq_cons] at member
      rcases List.mem_cons.mp member with rfl | deeper
      · exact ⟨inherited, _, held, rfl, traced.top⟩
      · obtain ⟨entry, isChild, inside⟩ := mem_idsOfAll.mp deeper
        exact inductionHypothesis entry isChild (traced.of_mem_children isChild)
          (held.of_mem_children isChild) inside

end TracedBelow

/-- Before the run every target is the old one. -/
theorem Hosted.tracedBelow
    {frames : List Frame} (hosted : Hosted store frames branch) (wellFormed : store.WellFormed) :
    TracedBelow context store (inheritedFrom frames.head?) branch := by
  induction branch using Branch.induction generalizing frames with
  | node id payload annotations children inductionHypothesis =>
      refine .mk ⟨fun _ member own => ?_, fun _ child found => ?_⟩ fun entry member => ?_
      · exact (hosted.accessedMember?_eq wellFormed).trans own
      · refine ⟨child, hosted.held.of_child? found, ?_, Or.inl .refl⟩
        rw [hosted.held.childIn_eq wellFormed, found]
        rfl
      · obtain ⟨frame, childHosted, inherits, _⟩ := hosted.exists_frame_of_mem_children member
        rw [← inherits]
        exact inductionHypothesis entry member childHosted

section New

variable {bound : Nat}

theorem IsToken.tracedBelow
    {text : String} {token : Branch} (isToken : IsToken bound text token) :
    TracedBelow context store inherited token := by
  cases isToken with
  | mk _ =>
      exact .of_new (by simp [Payload.handling]) fun entry member => absurd member List.not_mem_nil

theorem IsLiteral.tracedBelow
    {value : Literal} {literal : Branch} (isLiteral : IsLiteral bound value literal) :
    TracedBelow context store inherited literal := by
  cases isLiteral with
  | mk _ =>
      exact .of_new (by simp [Payload.handling]) fun entry member => absurd member List.not_mem_nil

theorem IsWritten.tracedBelow
    {type : Ty} {written : Branch} (isWritten : IsWritten bound type written) :
    TracedBelow context store inherited written := by
  induction isWritten generalizing inherited with
  | @mk _ payload _ _ _ _ isSyntax _ inductionHypothesis =>
      refine .of_no_access (fun isAccess => ?_) fun entry member => inductionHypothesis entry member
      rw [Branch.payload, Payload.handling_eq_access_iff] at isAccess
      rw [isAccess] at isSyntax
      cases isSyntax

theorem WrapsInCast.tracedBelow
    {options : TypeSyntaxOptions} {type : Ty} {operand cast : Branch}
    (wraps : WrapsInCast context bound options type operand cast)
    (traced : TracedBelow context store none operand) :
    TracedBelow context store inherited cast := by
  obtain ⟨isWritten, ⟨_, isLeft, isRight⟩⟩ := wraps
  refine .of_new (by simp [Payload.handling]) fun entry member => ?_
  simp only [List.mem_cons, List.not_mem_nil, or_false] at member
  rcases member with rfl | rfl | rfl | rfl
  · exact isLeft.tracedBelow
  · exact isWritten.tracedBelow
  · exact isRight.tracedBelow
  · exact traced

theorem IsConditionalOf.tracedBelow
    {one zero : Literal} {condition conditional : Branch}
    (isConditional : IsConditionalOf bound one zero condition conditional)
    (traced : TracedBelow context store none condition) :
    TracedBelow context store inherited conditional := by
  obtain ⟨_, isFirst, isSecond⟩ := isConditional
  refine .of_new (by simp [Payload.handling]) fun entry member => ?_
  simp only [List.mem_cons, List.not_mem_nil, or_false] at member
  rcases member with rfl | rfl | rfl
  · exact traced
  · exact isFirst.tracedBelow
  · exact isSecond.tracedBelow

theorem IsComparisonOf.tracedBelow
    {zero : Literal} {operand comparison : Branch}
    (isComparison : IsComparisonOf bound zero operand comparison)
    (traced : TracedBelow context store none operand) :
    TracedBelow context store inherited comparison := by
  obtain ⟨_, isLiteral⟩ := isComparison
  refine .of_new (by simp [Payload.handling]) fun entry member => ?_
  simp only [List.mem_cons, List.not_mem_nil, or_false] at member
  rcases member with rfl | rfl
  · exact traced
  · exact isLiteral.tracedBelow

theorem CastsValue.tracedBelow
    {target source : Ty} {value cast : Branch}
    (casts : CastsValue context bound target source value cast)
    (traced : TracedBelow context store none value) :
    TracedBelow context store none cast := by
  cases casts with
  | kept _ =>
      exact traced
  | cast _ _ wraps =>
      exact wraps.tracedBelow traced

end New

/-! ## The rules -/

/-- A relation between branches keeps every access traced. -/
def KeepsTraced (context : Context) (store : Store)
    (relation : Option Frame → Branch → Branch → Prop) : Prop :=
  ∀ surroundings branch result, relation surroundings branch result →
    TracedBelow context store (inheritedFrom surroundings) branch →
    TracedBelow context store (inheritedFrom surroundings) result

section Rules

variable {again : Option Frame → Branch → Branch → Prop} {surroundings : Option Frame}
  {frame : Frame} {node result : Branch} (keeps : KeepsTraced context store again)

include keeps

theorem FinishesConditional.tracedBelow
    {target : Ty} {conditional : Branch}
    (finishes : FinishesConditional context store.size again frame target conditional result)
    (traced : TracedBelow context store none conditional)
    (here : TracedBelow context store (inheritedFrom (some frame)) conditional) :
    TracedBelow context store (inheritedFrom (some frame)) result := by
  cases finishes with
  | wide _ related =>
      exact keeps _ _ _ related here
  | unwritten _ _ =>
      exact here
  | needless _ _ _ _ related =>
      exact keeps _ _ _ related here
  | needed _ _ wraps _ related =>
      exact keeps _ _ _ related (wraps.tracedBelow traced)

theorem TreatsCast.tracedBelow
    (isCast : node.payload.handling = .cast)
    (treats : TreatsCast context store.size again surroundings node result)
    (traced : TracedBelow context store (inheritedFrom surroundings) node) :
    TracedBelow context store (inheritedFrom surroundings) result := by
  cases treats with
  | unknown _ =>
      exact traced
  | legal _ _ _ =>
      exact traced
  | detached _ _ _ _ _ =>
      exact traced
  | noLiterals _ _ _ _ _ =>
      exact traced
  | toNumber _ found _ _ attached _ _ isConditional finishes =>
      subst attached
      have operand := traced.of_child? found
      exact finishes.tracedBelow keeps (isConditional.tracedBelow operand)
        (isConditional.tracedBelow operand)
  | toTruth _ found _ _ attached _ isComparison related =>
      subst attached
      exact keeps _ _ _ related (isComparison.tracedBelow (traced.of_child? found))
  | unwritten _ _ _ _ =>
      exact traced
  | detour _ _ _ _ _ _ _ wraps related =>
      refine traced.fill_of_no_access ?_ ?_
      · intro isAccess
        exact absurd (isCast.symm.trans isAccess) (by decide)
      · exact keeps _ _ _ related (wraps.tracedBelow traced.of_fill.alone)

theorem TreatsAssignment.tracedBelow
    (isAssignment : node.payload.handling = .assignment)
    (treats : TreatsAssignment context store.size again node result)
    (traced : TracedBelow context store inherited node) :
    TracedBelow context store inherited result := by
  have noAccess : node.payload.handling ≠ .access := by simp [isAssignment]
  -- The value stands on the right, so that it takes over no member.
  have nothing {frame : Frame} (isFirst : frame.IsFirst .right) :
      inheritedFrom (some frame) = none := by
    simp [inheritedFrom, isFirst.role_eq]
  cases treats with
  | unknown _ =>
      exact traced
  | plain isFirst _ _ casts _ _ =>
      refine traced.fill_of_no_access noAccess ?_
      rw [nothing isFirst]
      exact casts.tracedBelow traced.of_fill.alone
  | noLiterals isFirst _ _ casts _ _ =>
      refine traced.fill_of_no_access noAccess ?_
      rw [nothing isFirst]
      exact casts.tracedBelow traced.of_fill.alone
  | toNumber _ _ _ casts _ _ isConditional finishes =>
      have value := casts.tracedBelow traced.of_fill.alone
      exact traced.fill_of_no_access noAccess (finishes.tracedBelow keeps
        (isConditional.tracedBelow value) (isConditional.tracedBelow value))
  | toTruth _ _ _ casts _ isComparison related =>
      have value := casts.tracedBelow traced.of_fill.alone
      exact traced.fill_of_no_access noAccess
        (keeps _ _ _ related (isComparison.tracedBelow value))

/-- A new cast of a target: the treatments so far have led to a type outside the declaring class. -/
theorem TreatsAccess.tracedBelow
    (treats : TreatsAccess context store.size again surroundings node result)
    (traced : TracedBelow context store (inheritedFrom surroundings) node) :
    TracedBelow context store (inheritedFrom surroundings) result := by
  cases treats with
  | unknown _ =>
      exact traced
  | settled _ _ _ =>
      exact traced
  | @wrapped frame target cast result member receiver _ isFirst accessed typed _ outside wraps
      related =>
      refine traced.fill ⟨traced.top.member, fun isAccess child found => ?_⟩
        (keeps _ _ _ related (wraps.tracedBelow traced.of_fill.alone))
      obtain ⟨old, held, place, treated⟩ :=
        traced.top.target isAccess target (child?_fill isFirst target)
      refine ⟨old, held, place, Or.inr ?_⟩
      rcases treated with treated | calls
      · exact ⟨member, receiver, traced.top.member isAccess member accessed,
          ⟨old, target, held, place, treated, typed⟩, .of_isSubtype_eq_false outside⟩
      · exact calls

theorem TreatsNode.tracedBelow
    {below : Branch → Branch → Prop}
    (descends : ∀ middle, below node middle →
      TracedBelow context store (inheritedFrom surroundings) node →
      TracedBelow context store (inheritedFrom surroundings) middle ∧
        middle.payload = node.payload)
    (treats : TreatsNode context store.size again below surroundings node result)
    (traced : TracedBelow context store (inheritedFrom surroundings) node) :
    TracedBelow context store (inheritedFrom surroundings) result := by
  cases treats with
  | leave _ =>
      exact traced
  | descend _ related =>
      exact (descends _ related traced).1
  | access _ related treats =>
      exact treats.tracedBelow keeps (descends _ related traced).1
  | cast isCast related treats =>
      obtain ⟨middleTraced, samePayload⟩ := descends _ related traced
      exact treats.tracedBelow keeps (samePayload ▸ isCast) middleTraced
  | assignment isAssignment related treats =>
      obtain ⟨middleTraced, samePayload⟩ := descends _ related traced
      exact treats.tracedBelow keeps (samePayload ▸ isAssignment) middleTraced

end Rules

/-- Visiting the children treats the target of an access once more. -/
theorem Descends.tracedBelow
    {fuel : Nat} {middle : Branch}
    (keeps : KeepsTraced context store (Converts context store.size True fuel))
    (descends : Descends (Converts context store.size True fuel) branch middle)
    (traced : TracedBelow context store inherited branch) :
    TracedBelow context store inherited middle := by
  cases descends with
  | @mk visited visits =>
      have each : ∀ role before after child changed, Converts context store.size True fuel
          (some ⟨branch.id, branch.payload, branch.annotations, role, before, after⟩) child
          changed →
          (TracedBelow context store (branch.passedOn role) child →
            TracedBelow context store (branch.passedOn role) changed) ∧
          (role = .target → Treated context store.size branch.id child changed) := by
        intro role before after child changed related
        refine ⟨keeps _ _ _ related, ?_⟩
        rintro rfl
        exact ⟨fuel, _, rfl, related⟩
      obtain ⟨_, rfl, pairwise⟩ := visits.exists_pairwise each
      refine .mk ⟨traced.top.member, fun isAccess child found => ?_⟩ ?_
      · obtain ⟨entry, foundEntry, rfl⟩ := Option.map_eq_some_iff.mp found
        have backwards : List.Forall₂ (fun other entry => entry.1 = other.1 ∧
            (other.1 = .target → Treated context store.size branch.id entry.2 other.2))
            visited branch.children :=
          pairwise.flip.imp fun _ _ related => ⟨related.1.symm, related.1 ▸ related.2.2⟩
        obtain ⟨before, foundBefore, treated⟩ := find?_of_pairwise
          (fun role other child => role = .target →
            Treated context store.size branch.id child other) backwards foundEntry
        obtain ⟨old, held, place, reason⟩ := traced.top.target isAccess before.2
          (congrArg (Option.map Prod.snd) foundBefore)
        exact ⟨old, held, place, reason.imp_left fun steps => steps.tail (treated rfl)⟩
      · have both := (List.forall₂_and_left _ _).mpr
          ⟨fun _ isChild => traced.of_mem_children isChild, pairwise⟩
        exact all_visited (both.imp fun _ _ related =>
          ⟨related.2.1, related.2.1 ▸ related.2.2.1 related.1⟩)

/-- The pass keeps every access traced. -/
theorem Converts.keepsTraced (fuel : Nat) :
    KeepsTraced context store (Converts context store.size True fuel) := by
  induction fuel with
  | zero =>
      intro surroundings branch result converts
      refine TreatsNode.tracedBelow ?_ ?_ converts
      · rintro _ branch _ ⟨_, rfl⟩ traced
        exact traced
      · rintro _ ⟨_, rfl⟩ traced
        exact ⟨traced, rfl⟩
  | succ fuel inductionHypothesis =>
      intro surroundings branch result converts
      exact TreatsNode.tracedBelow inductionHypothesis
        (fun _ descends traced =>
          ⟨descends.tracedBelow inductionHypothesis traced, descends.payload_eq⟩) converts

end Branch

end TypedJava
