import TypedJava.Proofs.ConversionPass.Content
import TypedJava.Proofs.ConversionPass.Idempotence
import TypedJava.Proofs.ConversionPass.Tracing

/-! # Why a receiver is cast

A new cast comes between an access and its old target for one reason only: at some point the target,
as the treatments have left it, was of a type outside the class that declares the member. This does
not mean that the type is not derived from the class, and the member may be one of another access. -/

namespace TypedJava

namespace Branch

variable {context : Context} {store : Store} {branch : Branch}

/-! ## Casts that give way -/

section GivesWay

variable {bound : Nat} {mayCut : Prop} {fuel : Nat} {surroundings : Option Frame} {result : Branch}

theorem Revises.mem_ids
    (revises : Revises bound branch result) {id : NodeId} (old : id < bound)
    (member : id ∈ result.ids) :
    id ∈ branch.ids := by
  have kept := revises.leaves _ (leaves_self result)
  exact (kept.mem id (List.mem_filter.mpr ⟨member, by simpa using old⟩)).1

theorem TreatsNode.id_eq_or_revises
    {again : Option Frame → Branch → Branch → Prop} {below : Branch → Branch → Prop}
    (each : ∀ surroundings branch result, again surroundings branch result →
      Revises bound branch result)
    (descends : ∀ middle, below branch middle →
      middle.id = branch.id ∧ middle.payload = branch.payload ∧
      ∀ entry ∈ middle.children, ∃ old ∈ branch.children, Revises bound old.2 entry.2)
    (treats : TreatsNode context bound again below surroundings branch result) :
    result.id = branch.id ∧ result.payload = branch.payload ∨
      branch.payload = .cast ∧ ∃ entry ∈ branch.children, Revises bound entry.2 result := by
  cases treats with
  | leave _ =>
      exact Or.inl ⟨rfl, rfl⟩
  | descend _ related =>
      obtain ⟨sameId, samePayload, _⟩ := descends _ related
      exact Or.inl ⟨sameId, samePayload⟩
  | access _ related treats =>
      obtain ⟨sameId, samePayload, _⟩ := descends _ related
      cases treats <;> exact Or.inl ⟨sameId, samePayload⟩
  | @cast middle _ isCast related treats =>
      obtain ⟨sameId, samePayload, children⟩ := descends _ related
      have fromOperand {operand : Branch} (found : middle.child? .expression = some operand)
          (revises : Revises bound operand result) :
          ∃ entry ∈ branch.children, Revises bound entry.2 result := by
        obtain ⟨entry, foundEntry, rfl⟩ := Option.map_eq_some_iff.mp found
        obtain ⟨old, isChild, revisesOld⟩ :=
          children entry (List.mem_of_find?_eq_some foundEntry)
        exact ⟨old, isChild, revisesOld.trans revises⟩
      have castPayload := Payload.eq_cast_of_handling isCast
      cases treats with
      | toNumber _ found _ _ _ _ _ isConditional finishes =>
          exact Or.inr ⟨castPayload,
            fromOperand found (isConditional.revises.trans (finishes.revises each))⟩
      | toTruth _ found _ _ _ _ isComparison related =>
          exact Or.inr ⟨castPayload,
            fromOperand found (isComparison.revises.trans (each _ _ _ related))⟩
      | _ =>
          exact Or.inl ⟨sameId, samePayload⟩
  | assignment _ related treats =>
      obtain ⟨sameId, samePayload, _⟩ := descends _ related
      cases treats <;> exact Or.inl ⟨sameId, samePayload⟩

/-- A node stays at the top, unless it is a cast that gives way to its operand. -/
theorem Converts.id_eq_or_revises
    (converts : Converts context bound mayCut fuel surroundings branch result) :
    result.id = branch.id ∧ result.payload = branch.payload ∨
      branch.payload = .cast ∧ ∃ entry ∈ branch.children, Revises bound entry.2 result := by
  cases fuel with
  | zero =>
      refine TreatsNode.id_eq_or_revises ?_ ?_ converts
      · rintro _ branch _ ⟨_, rfl⟩
        exact .refl _
      · rintro _ ⟨_, rfl⟩
        exact ⟨rfl, rfl, fun entry isChild => ⟨entry, isChild, .refl _⟩⟩
  | succ fuel =>
      refine TreatsNode.id_eq_or_revises (fun _ _ _ => Converts.revises) ?_ converts
      rintro _ ⟨visits⟩
      obtain ⟨_, rfl, pairwise⟩ := visits.exists_pairwise fun _ _ _ _ _ => Converts.revises
      have both := (List.forall₂_and_left _ _).mpr ⟨fun _ isChild => isChild, pairwise⟩
      exact ⟨rfl, rfl, all_visited (both.imp fun entry _ related =>
        ⟨related.2.1, entry, related.1, related.2.2⟩)⟩

theorem Revises.of_treated
    {access : NodeId} (steps : Relation.ReflTransGen (Treated context bound access) branch result) :
    Revises bound branch result := by
  induction steps with
  | refl =>
      exact .refl branch
  | tail _ step inductionHypothesis =>
      obtain ⟨_, _, _, converts⟩ := step
      exact inductionHypothesis.trans converts.revises

/-- The old nodes in a revision of a held branch are there once. -/
theorem Revises.nodup
    (revises : Revises store.size branch result) (wellFormed : store.WellFormed)
    (held : branch.HeldIn store) :
    (result.ids.filter (· < store.size)).Nodup := by
  obtain ⟨casts, _, same⟩ :=
    (revises.leaves _ (leaves_self result)).explains wellFormed held
  rw [same]
  exact (held.ids_nodup wellFormed).filter _

/-- However often an old branch is treated, the node at its top stays there, unless it is a cast
that is gone. -/
theorem HeldIn.id_eq_or_not_mem_of_treated
    {access : NodeId} (held : branch.HeldIn store) (wellFormed : store.WellFormed)
    (steps : Relation.ReflTransGen (Treated context store.size access) branch result) :
    result.id = branch.id ∧ result.payload = branch.payload ∨
      branch.payload = .cast ∧ branch.id ∉ result.ids := by
  induction steps with
  | refl =>
      exact Or.inl ⟨rfl, rfl⟩
  | @tail middle result steps step inductionHypothesis =>
      obtain ⟨_, _, _, converts⟩ := step
      have old : branch.id < store.size := held.id_lt_size
      rcases inductionHypothesis with ⟨sameId, samePayload⟩ | ⟨isCast, gone⟩
      · rcases converts.id_eq_or_revises with
          ⟨sameTop, sameTopPayload⟩ | ⟨isCast, entry, isChild, revises⟩
        · exact Or.inl ⟨sameTop.trans sameId, sameTopPayload.trans samePayload⟩
        · refine Or.inr ⟨samePayload.symm.trans isCast, fun member => ?_⟩
          have below : branch.id ∈ idsOfAll middle.children :=
            mem_idsOfAll.mpr ⟨entry, isChild, revises.mem_ids old member⟩
          have nodup := (Revises.of_treated steps).nodup wellFormed held
          rw [ids_eq_cons, sameId, List.filter_cons_of_pos (by simpa using old),
            List.nodup_cons] at nodup
          exact nodup.1 (List.mem_filter.mpr ⟨below, by simpa using old⟩)
      · exact Or.inr ⟨isCast, fun member => gone (converts.revises.mem_ids old member)⟩

end GivesWay

/-- What the pass leaves alone has one type all along. -/
theorem eq_of_treated_of_leave
    {bound : Nat} {access : NodeId} {result : Branch} (isLeave : branch.payload.handling = .leave)
    (steps : Relation.ReflTransGen (Treated context bound access) branch result) :
    result = branch := by
  induction steps with
  | refl =>
      rfl
  | tail _ step inductionHypothesis =>
      subst inductionHypothesis
      obtain ⟨_, _, _, converts⟩ := step
      exact converts.eq_of_leave isLeave

end Branch

/-- The receiver of an access through a name or another simple expression has the type that it has
before the run. -/
theorem Store.ReceiverType.typeOf?_eq
    {store : Store} {context : Context} {access target : NodeId} {payload : Payload} {receiver : Ty}
    (receives : store.ReceiverType context access receiver) (wellFormed : store.WellFormed)
    (place : store.childIn (some access) .target = some target)
    (found : store.payload? (some target) = some payload) (isLeave : payload.handling = .leave) :
    store.typeOf? context (some target) = some receiver := by
  obtain ⟨branch, stage, held, samePlace, steps, typed⟩ := receives
  rw [place] at samePlace
  cases samePlace
  rw [held.payload?_eq] at found
  cases found
  rw [Branch.eq_of_treated_of_leave isLeave steps] at typed
  exact (held.typeOf?_eq wellFormed).trans typed

namespace Edit

open Branch

/-- Why an access below a block has a new node as its target after a run of the pass, whatever the
run has left out for its depth limit: the access calls for a cast, or the old target is a cast
itself and has given way. -/
theorem insertConversions_castsReceiver
    {context : Context} {root : NodeId} {store once : Store} (wellFormed : store.WellFormed)
    (isBlock : store.payload? (some root) = some .block)
    (ran : (insertConversions context (some root)).run store = (.ok (), once))
    {access top : NodeId} (below : once.isAtOrAbove (some root) (some access) = true)
    (isAccess : once.kind (some access) = .memberReference)
    (isTarget : once.childIn (some access) .target = some top) (new : store.size ≤ top) :
    ∃ target, store.childIn (some access) .target = some target ∧
      (store.CallsForCast context access ∨
        store.kind (some target) = .cast ∧
          once.isAtOrAbove (some top) (some target) = false) := by
  have inside : root < store.size := by
    obtain ⟨node, found, _⟩ := Option.map_eq_some_iff.mp isBlock
    exact Store.lt_size_of_node? found
  obtain ⟨frames, branch, hosted, rfl⟩ := Branch.exists_hosted wellFormed inside
  obtain ⟨other, changed, run, becomes, converts⟩ := run_insertConversions wellFormed hosted
  rw [ran] at run
  cases run
  have onceWellFormed := becomes.wellFormed
  have sameTop : other.id = branch.id := by
    rcases converts.id_eq_or_revises with ⟨sameTop, _⟩ | ⟨isCast, _⟩
    · exact sameTop
    · rw [hosted.held.payload?_eq, isCast] at isBlock
      cases isBlock
  have traced := Converts.keepsTraced _ _ _ _ converts (hosted.tracedBelow wellFormed)
  have held := becomes.hosted.held
  obtain ⟨_, same, above⟩ := onceWellFormed.isAtOrAbove_iff.mp below
  cases same
  have member : access ∈ other.ids := (held.mem_ids_iff onceWellFormed).mpr (sameTop ▸ above)
  obtain ⟨_, inner, innerHeld, rfl, innerTraced⟩ := traced.exists_of_mem_ids held member
  rw [innerHeld.kind_eq, ← Payload.handling_eq_access_iff] at isAccess
  rw [innerHeld.childIn_eq onceWellFormed] at isTarget
  obtain ⟨child, found, rfl⟩ := Option.map_eq_some_iff.mp isTarget
  have childHeld := innerHeld.of_child? found
  obtain ⟨target, targetHeld, place, reason⟩ := innerTraced.target isAccess child found
  refine ⟨target.id, place, ?_⟩
  rcases reason with steps | calls
  · rcases targetHeld.id_eq_or_not_mem_of_treated wellFormed steps with ⟨same, _⟩ | ⟨isCast, gone⟩
    · exact absurd targetHeld.id_lt_size (Nat.not_lt_of_le (same ▸ new))
    · refine Or.inr ⟨?_, ?_⟩
      · rw [targetHeld.kind_eq, isCast]
        rfl
      · rw [Bool.eq_false_iff]
        intro isAbove
        obtain ⟨_, same, above⟩ := onceWellFormed.isAtOrAbove_iff.mp isAbove
        cases same
        exact gone ((childHeld.mem_ids_iff onceWellFormed).mpr above)
  · exact Or.inl calls

/-! ### A receiver that is in its class already -/

/-- A run of the pass puts a new cast between an access below a block and its old target. -/
structure PutsCast (context : Context) (store once : Store) (root access target cast : NodeId) :
    Prop where
  wellFormed : store.WellFormed
  isBlock : store.payload? (some root) = some .block
  ran : (insertConversions context (some root)).run store = (.ok (), once)
  below : once.isAtOrAbove (some root) (some access) = true
  isAccess : once.kind (some access) = .memberReference
  before : store.childIn (some access) .target = some target
  after : once.childIn (some access) .target = some cast
  new : store.size ≤ cast
  isCast : once.kind (some cast) = .cast
  around : once.isAtOrAbove (some cast) (some target) = true

/-- The block `h.value;`, where `h` is a `Holder<?>` and the field is one of a `Holder<String>`. -/
def heldByWildcard : Store :=
  ((setType (some 0) (.classType ⟨15⟩ [.unboundedWildcard])).run (holderAccess.run .empty).2).2

theorem wellFormed_heldByWildcard : heldByWildcard.WellFormed :=
  Structural.keepsWellFormed (.setType _ _) _ wellFormed_holderAccess

/-- Builds the block `o.a.b;`, where `o` is some object and only `b` is known, a field of the generic
class. -/
def qualifiedAccess : Edit NodeId := do
  let target ← mkNode (.identifier "o")
  setType (some target) (.raw ⟨1⟩)
  let qualifier ← mkAccess (some target) "a" []
  let access ← mkAccess (some qualifier) "b" []
  setMember (some access) ⟨"b", .raw ⟨15⟩, .field (.primitive .int)⟩
  let statement ← mkStatement (some access)
  mkBlock [some statement]

/-- The block `o.a.b;`. -/
def qualified : Store :=
  (qualifiedAccess.run .empty).2

theorem wellFormed_qualified : qualified.WellFormed := by
  refine Structural.keepsWellFormed ?_ _ Store.wellFormed_empty
  exact .bind (.mkNode _) fun _ => .bind (.setType _ _) fun _ => .bind (.mkAccess _ _ _) fun _ =>
    .bind (.mkAccess _ _ _) fun _ => .bind (.setMember _ _) fun _ => .bind (.mkStatement _) fun _ =>
    .mkBlock _

theorem putsCast_heldByWildcard :
    PutsCast holderContext heldByWildcard
      ((insertConversions holderContext (some 4)).run heldByWildcard).2 4 1 0 7 :=
  ⟨wellFormed_heldByWildcard, rfl, Prod.ext (by decide +kernel) rfl, by decide +kernel,
    by decide +kernel, by decide +kernel, by decide +kernel, by decide +kernel, by decide +kernel,
    by decide +kernel⟩

theorem putsCast_qualified :
    PutsCast holderContext qualified
      ((insertConversions holderContext (some 6)).run qualified).2 6 1 0 9 :=
  ⟨wellFormed_qualified, rfl, Prod.ext (by decide +kernel) rfl, by decide +kernel,
    by decide +kernel, by decide +kernel, by decide +kernel, by decide +kernel, by decide +kernel,
    by decide +kernel⟩

/-- The pass casts a `Holder<?>`, because it is no `Holder<String>`. -/
theorem insertConversions_castsReceiver_of_heldByWildcard :
    holderContext.catalog.FallsOutside (.classType ⟨15⟩ [.unboundedWildcard])
      (.classType ⟨15⟩ [.raw ⟨6⟩]) := by
  have puts := putsCast_heldByWildcard
  obtain ⟨target, place, calls | ⟨isCast, _⟩⟩ := insertConversions_castsReceiver puts.wellFormed
    puts.isBlock puts.ran puts.below puts.isAccess puts.after puts.new
  · obtain ⟨member, receiver, accessed, receives, outside⟩ := calls
    have sameType := receives.typeOf?_eq puts.wellFormed puts.before rfl rfl
    cases accessed
    cases sameType
    exact outside
  · rw [puts.before] at place
    cases place
    exact absurd isCast (by decide +kernel)

/-- The pass casts a receiver that derives from the class of the member, and the receiver of an
access without a member that qualifies another access. -/
theorem insertConversions_castsReceiver_needlessly :
    (¬ ∀ context store once root access target cast member receiver declaring,
      PutsCast context store once root access target cast →
      store.accessedMember? (some access) = some member →
      store.typeOf? context (some target) = some receiver →
      member.declaringDefinition? = some declaring →
      context.catalog.viewAs? receiver declaring = none) ∧
    ¬ ∀ context store once root access target cast,
      PutsCast context store once root access target cast →
      ∃ member, store.member? (some access) = some member ∨
        store.role? (some access) = some .target ∧
          store.kind (store.parent (some access)) = .invocation ∧
          store.member? (store.parent (some access)) = some member := by
  constructor
  · intro minimal
    have noView := minimal _ _ _ _ _ _ _
      ⟨"value", .classType ⟨15⟩ [.raw ⟨6⟩], .field (.typeVariable ⟨"T", some ⟨15⟩⟩ none)⟩
      (.classType ⟨15⟩ [.unboundedWildcard]) ⟨15⟩ putsCast_heldByWildcard rfl rfl rfl
    cases noView
  · intro minimal
    obtain ⟨member, own | ⟨_, isInvocation, _⟩⟩ := minimal _ _ _ _ _ _ _ putsCast_qualified
    · cases own
    · exact absurd isInvocation (by decide +kernel)

end Edit

end TypedJava
