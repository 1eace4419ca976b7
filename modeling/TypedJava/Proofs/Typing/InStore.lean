import TypedJava.Proofs.Branch.InStore
import TypedJava.Proofs.Typing.OnTrees

/-! # Resolution where nodes are stored

Resolution reads payloads, annotations and references to children in the store. In a well-formed
store it comes to the same result as the rules for trees do on the tree of the node. Both go down
the same number of levels, so the proof is an induction on the levels; one step shows that whatever
a rule may ask about the nodes below has the same answer in the store and in the tree. -/

namespace TypedJava

namespace Branch

variable {store : Store} {branch : Branch} {context : Context}

/-- The slots of the tree. -/
def slots (branch : Branch) : List (Slot Tree) :=
  branch.payload.kind.roles.map fun role => ⟨role, treesIn role branch.children⟩

theorem toTree_eq_node (branch : Branch) :
    branch.toTree = .node branch.payload branch.annotations branch.slots := by
  cases branch
  rfl

theorem head?_treesIn (role : Role) :
    (treesIn role branch.children).head? = (branch.child? role).map toTree := by
  rw [treesIn_eq_filter, List.head?_map, List.head?_filter, child?, Option.map_map]
  rfl

namespace HeldIn

theorem childrenIn_slots
    (held : branch.HeldIn store) (wellFormed : store.WellFormed) (role : Role) :
    Slot.childrenIn branch.slots role = treesIn role branch.children := by
  have sameRoles : branch.slots.map (·.role) = branch.payload.kind.roles := by
    rw [slots, List.map_map]
    exact List.map_id _
  by_cases present : role ∈ branch.payload.kind.roles
  · have nodup : (branch.slots.map (·.role)).Nodup := sameRoles ▸ branch.payload.kind.roles_nodup
    exact Slot.childrenIn_of_mem nodup (List.mem_map.mpr ⟨role, present, rfl⟩)
  · rw [Slot.childrenIn_of_not_mem (sameRoles ▸ present), treesIn_eq_filter]
    have nobody : branch.children.filter (fun entry => entry.1 = role) = [] := by
      rw [List.filter_eq_nil_iff]
      intro entry member same
      rw [← of_decide_eq_true same] at present
      exact present (held.role_mem wellFormed member)
    rw [nobody, List.map_nil]

theorem head?_childrenIn_slots
    (held : branch.HeldIn store) (wellFormed : store.WellFormed) (role : Role) :
    (Slot.childrenIn branch.slots role).head? = (branch.child? role).map toTree := by
  rw [held.childrenIn_slots wellFormed, head?_treesIn]

theorem targetMember_eq (held : branch.HeldIn store) (wellFormed : store.WellFormed) :
    store.member? (store.childIn (some branch.id) .target) =
      (Slot.childrenIn branch.slots .target).head?.bind (·.annotations.member) := by
  rw [held.ask_childIn wellFormed .target store.member? rfl,
    held.head?_childrenIn_slots wellFormed]
  cases found : branch.child? .target with
  | none =>
      rfl
  | some target =>
      rw [Option.bind_some, (held.of_child? found).member?_eq, Option.map_some, Option.bind_some,
        toTree_eq_node]
      rfl

end HeldIn

/-- A way to resolve nodes finds for whatever the store holds what the rules for trees find within a
limit. Where the limit is used up, there is no way to resolve nodes. -/
inductive ResolvesAlike (store : Store) (context : Context) :
    Option (NodeRef → Option Resolved) → Option DepthLimit → Prop
  | exhausted : ResolvesAlike store context none none
  | within {resolve : NodeRef → Option Resolved} {limit : DepthLimit} :
      resolve none = none →
      (∀ branch : Branch, branch.HeldIn store →
        resolve (some branch.id) = branch.toTree.resolve context limit) →
      ResolvesAlike store context (some resolve) (some limit)

theorem ResolvesAlike.bind_none
    {resolve : Option (NodeRef → Option Resolved)} {limit : Option DepthLimit}
    (alike : ResolvesAlike store context resolve limit) :
    resolve.bind (· none) = none := by
  cases alike with
  | exhausted =>
      rfl
  | within absent _ =>
      exact absent

namespace HeldIn

variable {lower deeper : Option (NodeRef → Option Resolved)} {limit : DepthLimit}

/-- The first child in a role. -/
theorem resolveRole_eq
    (held : branch.HeldIn store) (wellFormed : store.WellFormed)
    (alike : ResolvesAlike store context lower limit.down?) (role : Role) :
    lower.bind (· (store.childIn (some branch.id) role)) =
      Tree.resolveRole context role branch.slots limit := by
  rw [Tree.resolveRole_eq, held.head?_childrenIn_slots wellFormed]
  generalize limit.down? = down at alike ⊢
  cases alike with
  | exhausted =>
      rfl
  | within absent same =>
      rw [Option.bind_some, Option.bind_some, held.ask_childIn wellFormed role _ absent,
        Option.bind_map]
      cases found : branch.child? role with
      | none =>
          rfl
      | some child =>
          exact same child (held.of_child? found)

/-- The receiver of a call. -/
theorem resolveReceiver_eq
    (held : branch.HeldIn store) (wellFormed : store.WellFormed)
    (alike : ResolvesAlike store context deeper (limit.down?.bind DepthLimit.down?)) :
    deeper.bind (· (store.receiver (some branch.id))) =
      limit.down?.bind (Tree.resolveReceiver context branch.slots ·) := by
  have read (lower : DepthLimit) : Tree.resolveReceiver context branch.slots lower =
      ((branch.child? .target).map toTree).bind (Tree.resolveQualifier context [·] lower) := by
    rw [Tree.resolveReceiver_eq, Tree.resolveQualifier_eq, held.head?_childrenIn_slots wellFormed]
  simp only [read, Store.receiver, held.childIn_eq wellFormed]
  cases found : branch.child? .target with
  | none =>
      change deeper.bind (· none) = limit.down?.bind fun _ => none
      rw [alike.bind_none, Option.bind_fun_none]
  | some target =>
      have targetHeld := held.of_child? found
      simp only [Option.map_some, Option.bind_some, toTree_eq_node, targetHeld.payload?_eq]
      cases isReference : target.payload with
      | memberReference name =>
          generalize limit.down? = down at alike ⊢
          cases down with
          | none =>
              cases alike
              rfl
          | some down =>
              exact targetHeld.resolveRole_eq wellFormed alike .target
      | _ =>
          simp [alike.bind_none, Tree.resolveQualifier]

/-- The types of several nodes. -/
theorem mapM_resolve_eq
    {resolve : NodeRef → Option Resolved} {children : List (Role × Branch)}
    (same : ∀ entry ∈ children,
      resolve (some entry.2.id) = entry.2.toTree.resolve context limit) :
    ((children.map fun entry => entry.2.id).mapM fun child =>
        (resolve (some child)).map (·.type)) =
      Tree.resolveAll context (children.map fun entry => entry.2.toTree) limit := by
  induction children with
  | nil =>
      rfl
  | cons entry rest inductionHypothesis =>
      rw [List.map_cons, List.map_cons, List.mapM_cons, Tree.resolveAll,
        inductionHypothesis fun other member => same other (List.mem_cons_of_mem _ member),
        same entry List.mem_cons_self]
      cases entry.2.toTree.resolve context limit <;> rfl

/-- The type arguments. -/
theorem resolveArguments_eq
    (held : branch.HeldIn store) (wellFormed : store.WellFormed)
    (alike : ResolvesAlike store context lower limit.down?) :
    (store.below lower deeper (some branch.id)).arguments () =
      (Tree.belowSlots context branch.slots limit).arguments () := by
  have allHeld : ∀ entry ∈ branch.children.filter (fun entry => entry.1 = .typeArgument),
      entry.2.HeldIn store := fun entry member =>
    held.of_mem_children (List.mem_filter.mp member).1
  simp only [Store.below, Tree.belowSlots, held.childrenIn_eq wellFormed, Tree.resolveArguments_eq,
    held.childrenIn_slots wellFormed, treesIn_eq_filter]
  generalize branch.children.filter (fun entry => entry.1 = .typeArgument) = entries at allHeld ⊢
  generalize limit.down? = down at alike ⊢
  cases alike with
  | exhausted =>
      rfl
  | within absent same =>
      cases entries with
      | nil =>
          rfl
      | cons first rest =>
          exact congrArg some
            (mapM_resolve_eq fun entry member => same entry.2 (allHeld entry member))

/-- What stands below a node and below its tree. -/
theorem below_eq
    (held : branch.HeldIn store) (wellFormed : store.WellFormed)
    (lowerAlike : ResolvesAlike store context lower limit.down?)
    (deeperAlike : ResolvesAlike store context deeper (limit.down?.bind DepthLimit.down?)) :
    store.below lower deeper (some branch.id) = Tree.belowSlots context branch.slots limit := by
  rw [Below.mk.injEq]
  exact ⟨funext (held.resolveRole_eq wellFormed lowerAlike),
    funext fun _ => held.targetMember_eq wellFormed,
    funext fun _ => held.resolveReceiver_eq wellFormed deeperAlike,
    funext fun _ => held.resolveArguments_eq wellFormed lowerAlike⟩

theorem resolveNode_eq
    (held : branch.HeldIn store) (wellFormed : store.WellFormed)
    (lowerAlike : ResolvesAlike store context lower limit.down?)
    (deeperAlike : ResolvesAlike store context deeper (limit.down?.bind DepthLimit.down?)) :
    store.resolveNode context lower deeper (some branch.id) =
      branch.toTree.resolve context limit := by
  obtain ⟨node, found, samePayload, sameAnnotations, _⟩ := held.exists_node
  rw [Store.resolveNode, found, Option.bind_some, samePayload, sameAnnotations,
    held.below_eq wellFormed lowerAlike deeperAlike, toTree_eq_node, Tree.resolve_eq]

end HeldIn

/-- What leads nowhere has no type. -/
theorem resolveWithin_eq_none
    {reference : NodeRef} (absent : store.node? reference = none) (levels : Nat) :
    store.resolveWithin context levels reference = none := by
  match levels with
  | 0 | 1 | levels + 2 =>
      rw [Store.resolveWithin, Store.resolveNode, absent, Option.bind_none]

/-- In a well-formed store, resolution comes to the same result as on the tree of the node. -/
theorem HeldIn.resolveWithin_eq
    (held : branch.HeldIn store) (wellFormed : store.WellFormed) (levels : Nat) :
    store.resolveWithin context levels (some branch.id) =
      branch.toTree.resolve context (some levels) := by
  induction levels using Nat.strongRecOn generalizing branch with
  | ind levels inductionHypothesis =>
      have alike (fewer : Nat) (less : fewer < levels) :
          ResolvesAlike store context (some fun node => store.resolveWithin context fewer node)
            (some (some fewer)) :=
        .within (resolveWithin_eq_none rfl fewer) fun _ held =>
          inductionHypothesis fewer less held
      match levels with
      | 0 =>
          exact held.resolveNode_eq wellFormed .exhausted .exhausted
      | 1 =>
          exact held.resolveNode_eq wellFormed (alike 0 (by omega)) .exhausted
      | levels + 2 =>
          exact held.resolveNode_eq wellFormed (alike (levels + 1) (by omega))
            (alike levels (by omega))

end Branch

namespace Store

/-- What a node resolves to is what its tree resolves to. -/
theorem WellFormed.resolve_eq
    {store : Store} (wellFormed : store.WellFormed) (context : Context) (node : NodeRef) :
    store.resolve context node = (store.tree? node).bind (·.resolve context resolveLimit) := by
  by_cases valid : ∃ id < store.size, node = some id
  · obtain ⟨id, valid, rfl⟩ := valid
    obtain ⟨branch, held, rfl⟩ := Branch.exists_branch wellFormed valid
    rw [held.tree?_eq wellFormed]
    exact held.resolveWithin_eq wellFormed resolveLevels
  · have absent : store.node? node = none := by
      rw [Option.eq_none_iff_forall_ne_some]
      intro found leads
      obtain ⟨id, rfl⟩ := exists_id_of_node? leads
      exact valid ⟨id, lt_size_of_node? leads, rfl⟩
    rw [tree?_eq_none absent]
    exact Branch.resolveWithin_eq_none absent resolveLevels

end Store

end TypedJava
