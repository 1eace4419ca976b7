import TypedJava.Proofs.TypeSyntax.Extent
import TypedJava.Ty.Substitution

/-! # Depictions of types

Written type syntax depicts the written form of a type node by node: every node is annotated with
the part of the type that it stands for. The written form keeps the erasure of the type, it is no
wildcard itself, and where wildcards are refused there is none in it, nor among the new nodes. -/

namespace TypedJava

namespace Ty

mutual

/-- Does the type, or one that it is built from, have a property? Bounds that variables carry do not
count. -/
def contains (property : Ty → Bool) : Ty → Bool
  | classType definition arguments =>
    property (classType definition arguments) || containsInAny property arguments
  | upperWildcard upper => property (upperWildcard upper) || contains property upper
  | lowerWildcard lower => property (lowerWildcard lower) || contains property lower
  | array element => property (array element) || contains property element
  | unboundedWildcard => property unboundedWildcard
  | typeVariable id bound => property (typeVariable id bound)
  | primitive kind => property (primitive kind)
  | null => property null

def containsInAny (property : Ty → Bool) : List Ty → Bool
  | [] => false
  | type :: types => contains property type || containsInAny property types

end

theorem containsInAny_of_mem
    {property : Ty → Bool} {type : Ty} {types : List Ty} (member : type ∈ types)
    (contained : type.contains property = true) :
    containsInAny property types = true := by
  induction types with
  | nil =>
      exact absurd member List.not_mem_nil
  | cons first rest inductionHypothesis =>
      rw [containsInAny, Bool.or_eq_true]
      rcases List.mem_cons.mp member with rfl | later
      · exact Or.inl contained
      · exact Or.inr (inductionHypothesis later)

theorem contains_arrayOf
    {property : Ty → Bool} {type : Ty} (contained : type.contains property = true) (rank : Nat) :
    (type.arrayOf rank).contains property = true := by
  induction rank with
  | zero =>
      exact contained
  | succ rank inductionHypothesis =>
      rw [arrayOf, contains, inductionHypothesis, Bool.or_true]

theorem contains_self
    {property : Ty → Bool} {type : Ty} (holds : property type = true) :
    type.contains property = true := by
  cases type <;> simp [contains, holds]

/-! ## The written form -/

variable {catalog : Catalog} {options : TypeSyntaxOptions}

/-- The written form of a type without the null type has the erasure of the type. -/
theorem erase_writable_of_noNull :
    (type : Ty) → (topLevel : Bool) → type.contains isNull = false →
      (type.writable catalog options topLevel).erase catalog = type.erase catalog
  | classType definition arguments, topLevel, _ => by
      rw [writable]
      split <;> rfl
  | array element, topLevel, noNull => by
      rw [contains, Bool.or_eq_false_iff] at noNull
      rw [writable, erase, erase, erase_writable_of_noNull element false noNull.2]
  | unboundedWildcard, topLevel, _ => by
      rw [writable]
      split <;> rfl
  | upperWildcard upper, topLevel, noNull => by
      rw [contains, Bool.or_eq_false_iff] at noNull
      rw [writable, erase]
      split
      · exact erase_writable_of_noNull upper false noNull.2
      · exact erase_writable_of_noNull upper topLevel noNull.2
  | lowerWildcard lower, topLevel, _ => by
      rw [writable]
      split <;> rfl
  | primitive kind, topLevel, _ => rfl
  | typeVariable id bound, topLevel, _ => rfl
  | null, topLevel, noNull => by cases noNull

/-- A wildcard is never written where it is no type argument. -/
theorem isWildcard_writable :
    (type : Ty) → (type.writable catalog options true).isWildcard = false
  | classType definition arguments => by
      rw [writable]
      split <;> rfl
  | upperWildcard upper => by
      rw [writable, if_neg (by simp)]
      exact isWildcard_writable upper
  | unboundedWildcard => by
      rw [writable, if_neg (by simp)]
      rfl
  | lowerWildcard lower => by
      rw [writable, if_neg (by simp)]
      rfl
  | array element => rfl
  | primitive kind => rfl
  | typeVariable id bound => rfl
  | null => rfl

mutual

/-- Where wildcards are refused, none is left at any depth. -/
theorem contains_isWildcard_writable (refused : options.allowWildcards = false) :
    (type : Ty) → (topLevel : Bool) →
      (type.writable catalog options topLevel).contains isWildcard = false
  | classType definition arguments, topLevel => by
      rw [writable]
      split
      · rw [contains, containsInAny_isWildcard_writableList refused arguments]
        rfl
      · rfl
  | array element, topLevel => by
      rw [writable, contains, contains_isWildcard_writable refused element false]
      rfl
  | unboundedWildcard, topLevel => by
      rw [writable, if_neg (by simp [refused])]
      rfl
  | upperWildcard upper, topLevel => by
      rw [writable, if_neg (by simp [refused])]
      exact contains_isWildcard_writable refused upper topLevel
  | lowerWildcard lower, topLevel => by
      rw [writable, if_neg (by simp [refused])]
      rfl
  | primitive kind, topLevel => rfl
  | typeVariable id bound, topLevel => rfl
  | null, topLevel => rfl

theorem containsInAny_isWildcard_writableList (refused : options.allowWildcards = false) :
    (types : List Ty) →
      containsInAny isWildcard (writableList catalog options types) = false
  | [] => rfl
  | type :: types => by
      rw [writableList, containsInAny, contains_isWildcard_writable refused type false,
        containsInAny_isWildcard_writableList refused types]
      rfl

end

end Ty

/-! ## Syntax that depicts a type -/

private theorem exists_mem_of_forall₂
    {first second : Type} {related : first → second → Prop} {firsts : List first}
    {seconds : List second} (all : List.Forall₂ related firsts seconds) {item : first}
    (member : item ∈ firsts) :
    ∃ other ∈ seconds, related item other := by
  induction all with
  | nil =>
      exact absurd member List.not_mem_nil
  | @cons head other _ _ holds _ inductionHypothesis =>
      rcases List.mem_cons.mp member with rfl | later
      · exact ⟨other, List.mem_cons_self, holds⟩
      · obtain ⟨found, isMember, related⟩ := inductionHypothesis later
        exact ⟨found, List.mem_cons_of_mem _ isMember, related⟩

namespace Tree

/-- The tree shows a type: each node is annotated with the part of the type that it stands for, and
its children show the parts of that part. The dimensions of an array share one node. -/
inductive Depicts : Tree → Ty → Prop
  | named {type : Ty} {name : String} {trees : List Tree} :
      type.isWildcard = false → type.isArray = false →
      List.Forall₂ Depicts trees type.arguments →
      Depicts (.node (.simpleType name) ⟨none, some type⟩ [⟨.typeArgument, trees⟩]) type
  | unbounded :
      Depicts (.node (.wildcardType .unbounded) ⟨none, some .unboundedWildcard⟩ [⟨.type, []⟩])
        .unboundedWildcard
  | upper {bound : Ty} {tree : Tree} :
      Depicts tree bound →
      Depicts (.node (.wildcardType .upper) ⟨none, some (.upperWildcard bound)⟩
        [⟨.type, [tree]⟩]) (.upperWildcard bound)
  | lower {bound : Ty} {tree : Tree} :
      Depicts tree bound →
      Depicts (.node (.wildcardType .lower) ⟨none, some (.lowerWildcard bound)⟩
        [⟨.type, [tree]⟩]) (.lowerWildcard bound)
  | dimensions {element : Ty} {rank : Nat} {tree : Tree} :
      element.isArray = false → Depicts tree element →
      Depicts (.node (.composedType (rank + 1)) ⟨none, some (element.arrayOf (rank + 1))⟩
        [⟨.type, [tree]⟩]) (element.arrayOf (rank + 1))

theorem depicts_finished
    {type : Ty} {payload : Payload} {slots : List (Slot Tree)} (notArray : type.isArray = false)
    (depicts : (node payload ⟨none, some type⟩ slots).Depicts type) (rank : Nat) :
    (finished type rank payload slots).Depicts (type.arrayOf rank) := by
  cases rank with
  | zero =>
      exact depicts
  | succ rank =>
      exact .dimensions notArray depicts

mutual

theorem depicts_spelledWithin (catalog : Catalog) :
    (type : Ty) → (rank : Nat) →
      (type.spelledWithin catalog rank).Depicts (type.arrayOf rank)
  | .array element, rank => by
      rw [Ty.spelledWithin, Ty.arrayOf_array]
      exact depicts_spelledWithin catalog element (rank + 1)
  | .primitive kind, rank => depicts_finished rfl (.named rfl rfl .nil) rank
  | .classType definition arguments, rank =>
      depicts_finished rfl (.named rfl rfl (depicts_spelledAll catalog arguments)) rank
  | .typeVariable id bound, rank => depicts_finished rfl (.named rfl rfl .nil) rank
  | .unboundedWildcard, rank => depicts_finished rfl .unbounded rank
  | .upperWildcard upper, rank =>
      depicts_finished rfl (.upper (depicts_spelledWithin catalog upper 0)) rank
  | .lowerWildcard lower, rank =>
      depicts_finished rfl (.lower (depicts_spelledWithin catalog lower 0)) rank
  | .null, rank => depicts_finished rfl (.named rfl rfl .nil) rank

theorem depicts_spelledAll (catalog : Catalog) :
    (types : List Ty) → List.Forall₂ Depicts (Ty.spelledAll catalog types) types
  | [] => .nil
  | type :: types =>
      .cons (depicts_spelledWithin catalog type 0) (depicts_spelledAll catalog types)

end

namespace Depicts

variable {tree : Tree} {type : Ty}

/-- A node is annotated with what it stands for, and wildcards are nodes of their own kind. -/
theorem annotated (depicts : tree.Depicts type) :
    tree.annotations.type = some type ∧ (tree.kind = .wildcardType ↔ type.isWildcard = true) := by
  cases depicts with
  | named notWildcard _ _ =>
      refine ⟨rfl, ?_⟩
      rw [notWildcard]
      exact ⟨fun impossible => (nomatch impossible), fun impossible => (nomatch impossible)⟩
  | unbounded =>
      exact ⟨rfl, fun _ => rfl, fun _ => rfl⟩
  | upper _ =>
      exact ⟨rfl, fun _ => rfl, fun _ => rfl⟩
  | lower _ =>
      exact ⟨rfl, fun _ => rfl, fun _ => rfl⟩
  | dimensions _ _ =>
      exact ⟨rfl, fun impossible => (nomatch impossible), fun impossible => (nomatch impossible)⟩

/-- What stands below a node depicts parts of what the node stands for. -/
theorem of_mem_children
    (depicts : tree.Depicts type) {slot : Slot Tree} (isSlot : slot ∈ tree.slots) {child : Tree}
    (isChild : child ∈ slot.children) :
    ∃ part, child.Depicts part ∧ ∀ property, part.contains property = true →
      type.contains property = true := by
  cases depicts with
  | @named type name trees _ _ arguments =>
      cases List.mem_singleton.mp isSlot
      obtain ⟨part, isPart, shows⟩ := exists_mem_of_forall₂ arguments isChild
      refine ⟨part, shows, fun property contained => ?_⟩
      cases type with
      | classType definition types =>
          have isPart : part ∈ types := isPart
          rw [Ty.contains, Ty.containsInAny_of_mem isPart contained, Bool.or_true]
      | _ => exact absurd isPart List.not_mem_nil
  | unbounded =>
      cases List.mem_singleton.mp isSlot
      exact absurd isChild List.not_mem_nil
  | upper shows =>
      cases List.mem_singleton.mp isSlot
      cases List.mem_singleton.mp isChild
      refine ⟨_, shows, fun property contained => ?_⟩
      rw [Ty.contains, contained, Bool.or_true]
  | lower shows =>
      cases List.mem_singleton.mp isSlot
      cases List.mem_singleton.mp isChild
      refine ⟨_, shows, fun property contained => ?_⟩
      rw [Ty.contains, contained, Bool.or_true]
  | dimensions _ shows =>
      cases List.mem_singleton.mp isSlot
      cases List.mem_singleton.mp isChild
      exact ⟨_, shows, fun property contained => Ty.contains_arrayOf contained _⟩

end Depicts

end Tree

namespace Branch

variable {store : Store} {branch : Branch}

theorem annotations_toTree (branch : Branch) : branch.toTree.annotations = branch.annotations := by
  cases branch
  rfl

theorem kind_toTree (branch : Branch) : branch.toTree.kind = branch.payload.kind := by
  cases branch
  rfl

/-- Every node of a branch that shows a type stands for a part of the type. -/
theorem HeldIn.exists_part_of_depicts
    (held : branch.HeldIn store) (wellFormed : store.WellFormed) {type : Ty}
    (depicts : branch.toTree.Depicts type) {id : NodeId} (member : id ∈ branch.ids) :
    ∃ part, store.type? (some id) = some part ∧
      (store.kind (some id) = .wildcardType ↔ part.isWildcard = true) ∧
      ∀ property, part.contains property = true → type.contains property = true := by
  induction branch using Branch.induction generalizing type with
  | node top payload annotations children inductionHypothesis =>
      rw [ids_eq_cons] at member
      rcases List.mem_cons.mp member with rfl | deeper
      · obtain ⟨annotated, isWildcard⟩ := depicts.annotated
        rw [annotations_toTree, ← held.type?_eq] at annotated
        rw [kind_toTree, ← held.kind_eq] at isWildcard
        exact ⟨type, annotated, isWildcard, fun _ contained => contained⟩
      · obtain ⟨entry, isChild, inside⟩ := mem_idsOfAll.mp deeper
        have isSlot : (⟨entry.1, treesIn entry.1 children⟩ : Slot Tree) ∈
            (Branch.node top payload annotations children).toTree.slots :=
          List.mem_map_of_mem (held.role_mem wellFormed isChild)
        have isTree : entry.2.toTree ∈ treesIn entry.1 children := by
          rw [treesIn_eq_filter]
          exact List.mem_map_of_mem (List.mem_filter.mpr ⟨isChild, by simp⟩)
        obtain ⟨part, shows, contains⟩ := depicts.of_mem_children isSlot isTree
        obtain ⟨smaller, annotated, isWildcard, within⟩ :=
          inductionHypothesis entry isChild (held.of_mem_children isChild) shows inside
        exact ⟨smaller, annotated, isWildcard, fun property contained =>
          contains property (within property contained)⟩

end Branch

namespace Store

/-- The node is the top of new type syntax for a type: it has no parent, the nodes that were there
before are as they were, and every new node belongs to the syntax and is annotated with the part of
the type that it stands for. -/
structure GainsType (store : Store) (node : NodeId) (written : Ty) (changed : Store) : Prop where
  new : store.size ≤ node ∧ node < changed.size
  detached : changed.place? (some node) = none
  keeps : ∀ id < store.size, changed.node? (some id) = store.node? (some id)
  annotated : changed.type? (some node) = some written
  depicts : ∃ tree, changed.tree? (some node) = some tree ∧ tree.Depicts written
  all : ∀ id, store.size ≤ id → id < changed.size → id ∈ changed.subtree (some node)

end Store

namespace Edit

/-- Writing a type without the null type always succeeds. What is written has the erasure of the
type and is no wildcard itself. Where wildcards are refused, there is none in it and no new node is
one. -/
theorem mkType_depicts
    {store : Store} (wellFormed : store.WellFormed) (catalog : Catalog)
    (options : TypeSyntaxOptions) {type : Ty} (noNull : type.contains Ty.isNull = false) :
    ∃ node changed written, (mkType catalog options type).run store = (.ok node, changed) ∧
      store.GainsType node written changed ∧
      written.erase catalog = type.erase catalog ∧
      written.isWildcard = false ∧
      (options.allowWildcards = false →
        written.contains Ty.isWildcard = false ∧
        ∀ id, store.size ≤ id → id < changed.size →
          changed.kind (some id) ≠ .wildcardType ∧
          ∃ part, changed.type? (some id) = some part ∧ part.contains Ty.isWildcard = false) := by
  obtain ⟨branch, changed, run, becomes, _, spelled⟩ :=
    Branch.run_mkType catalog options type wellFormed
  have held := becomes.hosted.held
  have depicts : branch.toTree.Depicts (type.writable catalog options true) := by
    rw [spelled]
    exact Tree.depicts_spelledWithin catalog _ 0
  have few : changed.size ≤ store.size + branch.toTree.count := by
    have adds := AddsAtMost.mkTypeWithin catalog (type.writable catalog options true) 0 store
    rw [spelled]
    rw [mkType] at run
    rw [run] at adds
    exact adds
  have part {id : NodeId} (new : store.size ≤ id) (bound : id < changed.size) :=
    held.exists_part_of_depicts becomes.wellFormed depicts (becomes.mem_ids_of_new few new bound)
  refine ⟨branch.id, changed, type.writable catalog options true, run, ?_,
    Ty.erase_writable_of_noNull type true noNull, Ty.isWildcard_writable type, fun refused => ?_⟩
  · have top := Branch.id_mem_ids branch
    refine ⟨⟨(becomes.fresh _ top).resolve_left List.not_mem_nil, held.id_lt_size⟩,
      becomes.hosted.place?_eq_none, fun id bound => becomes.keeps.node_eq id bound (by simp), ?_,
      ⟨branch.toTree, held.tree?_eq becomes.wellFormed, depicts⟩, fun id new bound => ?_⟩
    · rw [held.type?_eq, ← Branch.annotations_toTree]
      exact depicts.annotated.1
    · rw [held.subtree_eq becomes.wellFormed]
      exact becomes.mem_ids_of_new few new bound
  · have noWildcard : (type.writable catalog options true).contains Ty.isWildcard = false :=
      Ty.contains_isWildcard_writable refused type true
    refine ⟨noWildcard, fun id new bound => ?_⟩
    obtain ⟨smaller, annotated, isWildcard, within⟩ := part new bound
    have none : smaller.contains Ty.isWildcard = false := by
      rw [Bool.eq_false_iff]
      intro contained
      rw [within _ contained] at noWildcard
      cases noWildcard
    refine ⟨fun isKind => ?_, smaller, annotated, none⟩
    rw [Ty.contains_self (isWildcard.mp isKind)] at none
    cases none

/-- Without wildcards, a wildcard bounded by an array of comparables of a wildcard, written next to
another node. -/
theorem mkType_depicts_of_comparables :
    let store : Store := (Store.empty.push (.ofPayload (.identifier "values"))).2
    let options : TypeSyntaxOptions := ⟨false, true⟩
    let type : Ty := .upperWildcard (.array (.classType ⟨4⟩ [.lowerWildcard (.raw ⟨6⟩)]))
    ∃ node changed written, (mkType .standard options type).run store = (.ok node, changed) ∧
      store.GainsType node written changed ∧
      written.erase .standard = .array (.raw ⟨4⟩) ∧
      written.isWildcard = false ∧ written.contains Ty.isWildcard = false ∧
      ∀ id, 1 ≤ id → id < changed.size → changed.kind (some id) ≠ .wildcardType := by
  intro store options type
  obtain ⟨node, changed, written, run, gains, sameErasure, notWildcard, refuses⟩ :=
    mkType_depicts (Store.wellFormed_empty.push_ofPayload (.identifier "values")) .standard options
      (rfl : type.contains Ty.isNull = false)
  obtain ⟨noWildcard, noKind⟩ := refuses rfl
  exact ⟨node, changed, written, run, gains, sameErasure, notWildcard, noWildcard,
    fun id new bound => (noKind id new bound).1⟩

end Edit

end TypedJava
