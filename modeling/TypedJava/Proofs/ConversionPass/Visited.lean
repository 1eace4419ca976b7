import TypedJava.Proofs.ConversionPass.DepthLimit

/-! # The nodes that the pass visits

What holds at every node that the pass visits. A property of the result of a run follows from what
the single rules make of the nodes that they treat. -/

namespace TypedJava

namespace Branch

/-- The member that a child may take over from the node above it. -/
def passedOn (branch : Branch) (role : Role) : Option Member :=
  if role = .target then branch.annotations.member else none

/-- The member that a branch may take over from what is around it. -/
def inheritedFrom (surroundings : Option Frame) : Option Member :=
  surroundings.bind fun frame => if frame.role = .target then frame.annotations.member else none

/-- A property holds at every node of a branch that the pass visits. Below a node that it leaves
alone it visits nothing. -/
inductive Everywhere (property : Option Member → Branch → Prop) :
    Option Member → Branch → Prop
  | mk {inherited : Option Member} {branch : Branch} :
      property inherited branch →
      (branch.payload.handling ≠ .leave → ∀ entry ∈ branch.children,
        Everywhere property (branch.passedOn entry.1) entry.2) →
      Everywhere property inherited branch

namespace Everywhere

variable {property weaker : Option Member → Branch → Prop} {inherited : Option Member}
  {branch : Branch}

theorem top (everywhere : Everywhere property inherited branch) : property inherited branch := by
  cases everywhere with
  | mk top _ =>
      exact top

theorem of_mem_children
    (everywhere : Everywhere property inherited branch)
    (visited : branch.payload.handling ≠ .leave) {entry : Role × Branch}
    (member : entry ∈ branch.children) :
    Everywhere property (branch.passedOn entry.1) entry.2 := by
  cases everywhere with
  | mk _ below =>
      exact below visited entry member

theorem imp
    (everywhere : Everywhere property inherited branch)
    (implies : ∀ inherited branch, property inherited branch → weaker inherited branch) :
    Everywhere weaker inherited branch := by
  induction everywhere with
  | mk top _ inductionHypothesis =>
      exact .mk (implies _ _ top) inductionHypothesis

end Everywhere

/-- A property holds at every node of a branch that the pass visits, whatever is around it. -/
def Throughout (property : Branch → Prop) (branch : Branch) : Prop :=
  ∀ inherited, Everywhere (fun _ => property) inherited branch

namespace Throughout

variable {property : Branch → Prop} {branch : Branch}

theorem mk
    (top : property branch)
    (children : branch.payload.handling ≠ .leave → ∀ entry ∈ branch.children,
      entry.2.Throughout property) :
    branch.Throughout property :=
  fun _ => .mk top fun visited entry member => children visited entry member _

theorem of_all (all : ∀ branch : Branch, property branch) : branch.Throughout property := by
  induction branch using Branch.induction with
  | node id payload annotations children inductionHypothesis =>
      exact .mk (all _) fun _ => inductionHypothesis

theorem of_everywhere {inherited : Option Member}
    (everywhere : Everywhere (fun _ => property) inherited branch) :
    branch.Throughout property := by
  intro other
  cases everywhere with
  | mk top below =>
      exact .mk top below

theorem top (throughout : branch.Throughout property) : property branch :=
  (throughout none).top

theorem of_mem_children
    (throughout : branch.Throughout property) (visited : branch.payload.handling ≠ .leave)
    {entry : Role × Branch} (member : entry ∈ branch.children) :
    entry.2.Throughout property :=
  .of_everywhere ((throughout none).of_mem_children visited member)

end Throughout

/-! ## Properties of the result of a complete run -/

/-- If one property holds throughout a branch, the other holds at every visited node. -/
def Gains (given : Branch → Prop) (property : Option Member → Branch → Prop)
    (inherited : Option Member) (branch : Branch) : Prop :=
  branch.Throughout given → Everywhere property inherited branch

/-- The rules establish a property at every node that they are done with, as long as another
property holds of the result. Nodes that are treated again count as done only after that. -/
structure Establishes (context : Context) (bound : Nat) (given : Branch → Prop)
    (property : Option Member → Branch → Prop) : Prop where
  other : ∀ (inherited : Option Member) (branch : Branch), branch.payload.handling ≠ .access →
    branch.payload.handling ≠ .cast → branch.payload.handling ≠ .assignment →
    property inherited branch
  access : ∀ {again : Option Frame → Branch → Branch → Prop} {surroundings : Option Frame}
      {branch result : Branch},
    (∀ surroundings branch result, again surroundings branch result →
      ∃ fuel, Converts context bound False fuel surroundings branch result) →
    branch.payload.handling = .access →
    TreatsAccess context bound again surroundings branch result →
    result.Throughout given → property (inheritedFrom surroundings) result
  legalCast : ∀ (inherited : Option Member) (branch : Branch), branch.payload.handling = .cast →
    (∀ target source, branch.typeIn? context .type = some target →
      branch.typeIn? context .expression = some source →
      context.catalog.conversion target source ≠ .none) →
    property inherited branch
  detouredCast : ∀ {fuel : Nat} {frame : Frame} {options : TypeSyntaxOptions}
      {operand wrapped result : Branch} (inherited : Option Member),
    frame.payload.handling = .cast → frame.IsFirst .expression →
    WrapsInCast context bound options context.catalog.objectType operand wrapped →
    Converts context bound False fuel (some frame) wrapped result →
    (frame.fill result).Throughout given → property inherited (frame.fill result)
  insertedCast : ∀ {frame : Frame} {options : TypeSyntaxOptions} {value cast : Branch}
      {target source : Ty} (inherited : Option Member),
    frame.payload.handling = .assignment → frame.IsFirst .right →
    (frame.fill value).typeIn? context .left = some target →
    value.typeOf? context = some source →
    (context.catalog.conversion target source).isExplicit = true →
    WrapsInCast context bound { options with allowWildcards := false } target value cast →
    (frame.fill cast).Throughout given → property inherited cast
  assignment : ∀ {again : Option Frame → Branch → Branch → Prop} {branch result : Branch}
      (inherited : Option Member),
    (∀ surroundings branch result, again surroundings branch result →
      ∃ fuel, Converts context bound False fuel surroundings branch result) →
    branch.payload.handling = .assignment →
    TreatsAssignment context bound again branch result →
    result.Throughout given → property inherited result

/-- There are literals for truth values among the values of every numeric type. -/
theorem truthLiterals?_ne_none {target : Ty} (numeric : target.isNumeric = true) :
    truthLiterals? target ≠ none := by
  cases target with
  | primitive kind =>
      revert numeric
      cases kind <;> decide
  | _ =>
      cases numeric

theorem IsToken.handling_eq
    {bound : Nat} {text : String} {token : Branch} (isToken : IsToken bound text token) :
    token.payload.handling = .leave := by
  cases isToken with
  | mk _ =>
      rfl

theorem IsWritten.handling_eq
    {bound : Nat} {type : Ty} {written : Branch} (isWritten : IsWritten bound type written) :
    written.payload.handling = .leave := by
  cases isWritten with
  | @mk id payload _ _ _ _ isSyntax _ =>
      cases payload <;> first | rfl | cases isSyntax

section Results

variable {context : Context} {bound : Nat} {again : Option Frame → Branch → Branch → Prop}
  {given : Branch → Prop} {property : Option Member → Branch → Prop} {inherited : Option Member}

/-- A branch is exchanged in a gap among others. -/
private theorem gains_fill
    {frame : Frame} {branch other : Branch} (visited : frame.payload.handling ≠ .leave)
    (children : ∀ entry ∈ (frame.fill branch).children,
      Gains given property ((frame.fill branch).passedOn entry.1) entry.2)
    (child : (frame.fill other).Throughout given →
      Everywhere property (inheritedFrom (some frame)) other)
    (top : (frame.fill other).Throughout given → property inherited (frame.fill other)) :
    Gains given property inherited (frame.fill other) := by
  intro holds
  refine .mk (top holds) fun _ entry member => ?_
  have sibling (isSibling : ∀ branch, entry ∈ (frame.fill branch).children) :
      Everywhere property ((frame.fill other).passedOn entry.1) entry.2 :=
    children entry (isSibling branch) (holds.of_mem_children visited (isSibling other))
  rcases List.mem_append.mp member with before | here
  · exact sibling fun branch => mem_before_children before branch
  · rcases List.mem_cons.mp here with rfl | after
    · exact child holds
    · exact sibling fun branch => mem_after_children after branch

/-- A branch whose children are done is done when its top is. -/
private theorem gains_of_children
    {branch : Branch}
    (children : branch.payload.handling ≠ .leave → ∀ entry ∈ branch.children,
      Gains given property (branch.passedOn entry.1) entry.2)
    (top : branch.Throughout given → property inherited branch) :
    Gains given property inherited branch :=
  fun holds => .mk (top holds) fun visited entry member =>
    children visited entry member (holds.of_mem_children visited member)

variable (establishes : Establishes context bound given property)
  (comes : ∀ surroundings branch result, again surroundings branch result →
    ∃ fuel, Converts context bound False fuel surroundings branch result)
  (each : ∀ surroundings branch result, again surroundings branch result →
    surroundings ≠ none → Gains given property (inheritedFrom surroundings) result)
  (written : context.typeSyntax ≠ none)

/-- Type syntax and punctuation is left alone. -/
private theorem everywhere_of_leave
    (establishes : Establishes context bound given property) {branch : Branch}
    (isLeave : branch.payload.handling = .leave) :
    Everywhere property inherited branch :=
  .mk (establishes.other inherited branch (by simp [isLeave]) (by simp [isLeave])
    (by simp [isLeave])) fun visited => absurd isLeave visited

/-- A new cast is done when it is done at its top and its operand is done. -/
private theorem WrapsInCast.gains
    (establishes : Establishes context bound given property) {options : TypeSyntaxOptions}
    {type : Ty} {operand cast : Branch}
    (wraps : WrapsInCast context bound options type operand cast)
    (operandGains : Gains given property none operand) (holds : cast.Throughout given)
    (top : property inherited cast) :
    Everywhere property inherited cast := by
  cases wraps with
  | @mk written cast isWritten isCast =>
      cases isCast with
      | @mk id left right new isLeft isRight =>
          have visited : (node id .cast .empty [(.leftParenthesis, left), (.type, written),
              (.rightParenthesis, right), (.expression, operand)]).payload.handling ≠ .leave := by
            simp [Branch.payload, Payload.handling]
          refine .mk top fun _ entry member => ?_
          have child := holds.of_mem_children visited member
          simp only [Branch.children, List.mem_cons, List.not_mem_nil, or_false] at member
          rcases member with rfl | rfl | rfl | rfl
          · exact everywhere_of_leave establishes isLeft.handling_eq
          · exact everywhere_of_leave establishes isWritten.handling_eq
          · exact everywhere_of_leave establishes isRight.handling_eq
          · exact operandGains child

include each written

theorem FinishesConditional.gains
    {frame : Frame} {target : Ty} {conditional result : Branch}
    (finishes : FinishesConditional context bound again frame target conditional result) :
    Gains given property (inheritedFrom (some frame)) result := by
  cases finishes with
  | wide _ related =>
      exact each _ _ _ related (Option.some_ne_none _)
  | unwritten _ none =>
      exact absurd none written
  | needless _ _ _ _ related =>
      exact each _ _ _ related (Option.some_ne_none _)
  | needed _ _ _ _ related =>
      exact each _ _ _ related (Option.some_ne_none _)

include establishes comes

omit written in
theorem TreatsAccess.gains
    {surroundings : Option Frame} {node result : Branch}
    (isAccess : node.payload.handling = .access)
    (children : ∀ entry ∈ node.children, Gains given property (node.passedOn entry.1) entry.2)
    (treats : TreatsAccess context bound again surroundings node result) :
    Gains given property (inheritedFrom surroundings) result := by
  have top := establishes.access comes isAccess treats
  cases treats with
  | unknown _ =>
      exact gains_of_children (fun _ => children) top
  | settled _ _ _ =>
      exact gains_of_children (fun _ => children) top
  | @wrapped frame target cast result _ _ _ _ _ _ _ _ wraps related =>
      have visited : frame.payload.handling ≠ .leave := by
        have same : frame.payload.handling = .access := isAccess
        simp [same]
      refine gains_fill visited children (fun holds => ?_) top
      exact each _ _ _ related (Option.some_ne_none _)
        (holds.of_mem_children visited (frame.mem_children_fill result))

theorem TreatsCast.gains
    {surroundings : Option Frame} {node result : Branch} (attached : surroundings ≠ none)
    (isCast : node.payload.handling = .cast)
    (children : ∀ entry ∈ node.children, Gains given property (node.passedOn entry.1) entry.2)
    (treats : TreatsCast context bound again surroundings node result) :
    Gains given property (inheritedFrom surroundings) result := by
  have kept (legal : ∀ target source, node.typeIn? context .type = some target →
      node.typeIn? context .expression = some source →
      context.catalog.conversion target source ≠ .none) :
      Gains given property (inheritedFrom surroundings) node :=
    gains_of_children (fun _ => children) fun _ => establishes.legalCast _ node isCast legal
  cases treats with
  | unknown missing =>
      refine kept fun target source targetKnown sourceKnown => ?_
      rcases missing with none | none
      · simp [none] at targetKnown
      · simp [none] at sourceKnown
  | legal targetKnown sourceKnown legal =>
      refine kept fun target source otherTarget otherSource => ?_
      rw [targetKnown] at otherTarget
      rw [sourceKnown] at otherSource
      cases otherTarget
      cases otherSource
      exact legal
  | detached _ _ _ none _ =>
      exact absurd none attached
  | noLiterals _ _ _ number none =>
      exact absurd none (truthLiterals?_ne_none number.2)
  | @toNumber _ _ _ _ frame _ _ _ _ _ _ _ _ isSurrounded _ _ _ finishes =>
      rw [isSurrounded]
      exact finishes.gains each written
  | toTruth _ _ _ _ isSurrounded _ _ related =>
      rw [isSurrounded]
      exact each _ _ _ related (Option.some_ne_none _)
  | unwritten _ _ _ none =>
      exact absurd none written
  | @detour operand wrapped result frame _ _ _ isFirst _ _ _ _ _ _ wraps related =>
      obtain ⟨fuel, converts⟩ := comes _ _ _ related
      have visited : frame.payload.handling ≠ .leave := by
        have same : frame.payload.handling = .cast := isCast
        simp [same]
      refine gains_fill visited children (fun holds => ?_) fun holds =>
        establishes.detouredCast _ isCast isFirst wraps converts holds
      exact each _ _ _ related (Option.some_ne_none _)
        (holds.of_mem_children visited (frame.mem_children_fill result))

theorem TreatsAssignment.gains
    {node result : Branch} (isAssignment : node.payload.handling = .assignment)
    (children : ∀ entry ∈ node.children, Gains given property (node.passedOn entry.1) entry.2)
    (treats : TreatsAssignment context bound again node result) :
    Gains given property inherited result := by
  have top := establishes.assignment inherited comes isAssignment treats
  have visited : node.payload.handling ≠ .leave := by simp [isAssignment]
  cases treats with
  | unknown _ =>
      exact gains_of_children (fun _ => children) top
  | @plain frame value cast target source isFirst leftType sourceType casts _ _ =>
      refine gains_fill visited children (fun holds => ?_) top
      have castHolds := holds.of_mem_children visited (frame.mem_children_fill cast)
      have valueGains := children _ (frame.mem_children_fill value)
      cases casts with
      | kept _ =>
          exact valueGains castHolds
      | cast needed _ wraps =>
          -- A value inherits no member, neither in the assignment nor in the cast.
          have passesNothing : (frame.fill value).passedOn frame.role = none :=
            if_neg (by simp [isFirst.role_eq])
          rw [passesNothing] at valueGains
          exact wraps.gains establishes valueGains castHolds
            (establishes.insertedCast _ isAssignment isFirst leftType sourceType needed wraps holds)
  | noLiterals _ _ _ _ number none =>
      exact absurd none (truthLiterals?_ne_none number.2)
  | @toNumber frame value cast conditional result _ _ _ _ _ _ _ _ _ _ _ finishes =>
      refine gains_fill visited children (fun holds => ?_) top
      exact finishes.gains each written
        (holds.of_mem_children visited (frame.mem_children_fill result))
  | @toTruth frame value cast comparison result _ _ _ _ _ _ _ _ _ related =>
      refine gains_fill visited children (fun holds => ?_) top
      exact each _ _ _ related (Option.some_ne_none _)
        (holds.of_mem_children visited (frame.mem_children_fill result))

theorem TreatsNode.gains
    {below : Branch → Branch → Prop} {surroundings : Option Frame} {branch result : Branch}
    (attached : surroundings ≠ none ∨ branch.payload.handling ≠ .cast)
    (descends : ∀ middle, below branch middle → middle.payload = branch.payload ∧
      ∀ entry ∈ middle.children, Gains given property (middle.passedOn entry.1) entry.2)
    (treats : TreatsNode context bound again below surroundings branch result) :
    Gains given property (inheritedFrom surroundings) result := by
  cases treats with
  | leave isLeave =>
      exact fun _ => everywhere_of_leave establishes isLeave
  | descend isDescend related =>
      obtain ⟨same, children⟩ := descends _ related
      rw [← same] at isDescend
      exact gains_of_children (fun _ => children) fun _ =>
        establishes.other _ _ (by simp [isDescend]) (by simp [isDescend]) (by simp [isDescend])
  | access isAccess related treats =>
      obtain ⟨same, children⟩ := descends _ related
      rw [← same] at isAccess
      exact treats.gains establishes comes each isAccess children
  | cast isCast related treats =>
      obtain ⟨same, children⟩ := descends _ related
      have here := attached.resolve_right fun other => other isCast
      rw [← same] at isCast
      exact treats.gains establishes comes each written here isCast children
  | assignment isAssignment related treats =>
      obtain ⟨same, children⟩ := descends _ related
      rw [← same] at isAssignment
      exact treats.gains establishes comes each written isAssignment children

end Results

/-- What pairs of children say of the second one holds of all in the second list. -/
theorem all_visited
    {property : Role × Branch → Prop} {related : Role × Branch → Role × Branch → Prop}
    {children visited : List (Role × Branch)}
    (pairwise : List.Forall₂ (fun entry other => related entry other ∧ property other)
      children visited) :
    ∀ entry ∈ visited, property entry := by
  induction pairwise with
  | nil =>
      exact fun entry member => absurd member List.not_mem_nil
  | cons first _ inductionHypothesis =>
      intro entry member
      rcases List.mem_cons.mp member with rfl | later
      · exact first.2
      · exact inductionHypothesis entry later

/-- A complete run of the pass establishes the property at every visited node of its result. -/
theorem Converts.gains
    {context : Context} {bound : Nat} {given : Branch → Prop}
    {property : Option Member → Branch → Prop}
    (establishes : Establishes context bound given property) (written : context.typeSyntax ≠ none)
    {fuel : Nat} {surroundings : Option Frame} {branch result : Branch}
    (attached : surroundings ≠ none ∨ branch.payload.handling ≠ .cast)
    (converts : Converts context bound False fuel surroundings branch result) :
    Gains given property (inheritedFrom surroundings) result := by
  induction fuel generalizing surroundings branch result with
  | zero =>
      refine TreatsNode.gains establishes ?_ ?_ written attached ?_ converts
      · rintro _ _ _ ⟨impossible, _⟩
        exact impossible.elim
      · rintro _ _ _ ⟨impossible, _⟩
        exact impossible.elim
      · rintro _ ⟨impossible, _⟩
        exact impossible.elim
  | succ fuel inductionHypothesis =>
      refine TreatsNode.gains establishes (fun _ _ _ converts => ⟨fuel, converts⟩)
        (fun _ _ _ converts attached => inductionHypothesis (Or.inl attached) converts) written
        attached ?_ converts
      rintro _ ⟨visits⟩
      refine ⟨rfl, ?_⟩
      have each : ∀ role before after child changed, Converts context bound False fuel
          (some ⟨branch.id, branch.payload, branch.annotations, role, before, after⟩) child
          changed → Gains given property (branch.passedOn role) changed :=
        fun role before after child changed related =>
          inductionHypothesis (Or.inl (Option.some_ne_none _)) related
      obtain ⟨visited, rfl, pairwise⟩ := visits.exists_pairwise each
      refine all_visited (pairwise.imp fun entry other related => ⟨related.1, ?_⟩)
      rw [Branch.passedOn, related.1]
      exact related.2

end Branch

end TypedJava
