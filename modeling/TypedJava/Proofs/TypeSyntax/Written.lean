import TypedJava.Proofs.Branch.Build
import TypedJava.Proofs.TypeSyntax.Spelling

/-! # Written types

Writing a type adds a branch of new nodes. All of them are type syntax, and each is annotated with
the type that it stands for. -/

namespace TypedJava

namespace Branch

/-- A branch of new type syntax for a type. -/
inductive IsWritten (bound : Nat) : Ty → Branch → Prop
  | mk {id : NodeId} {payload : Payload} {type : Ty} {children : List (Role × Branch)}
      (types : Role × Branch → Ty) :
      bound ≤ id → payload.kind.isTypeSyntax = true →
      (∀ entry ∈ children, IsWritten bound (types entry) entry.2) →
      IsWritten bound type (.node id payload ⟨none, some type⟩ children)

theorem IsWritten.mono
    {bound smaller : Nat} {type : Ty} {branch : Branch} (isWritten : IsWritten bound type branch)
    (le : smaller ≤ bound) :
    IsWritten smaller type branch := by
  induction isWritten with
  | mk types new isSyntax _ inductionHypothesis =>
      exact .mk types (Nat.le_trans le new) isSyntax inductionHypothesis

variable {store changed : Store}

/-- Several detached branches of new nodes have been added to a store. -/
structure Yields (store : Store) (branches : List Branch) (changed : Store) : Prop where
  wellFormed : changed.WellFormed
  hosted : ∀ branch ∈ branches, Hosted changed [] branch
  keeps : store.Keeps changed fun _ => False
  fresh : ∀ branch ∈ branches, ∀ id ∈ branch.ids, store.size ≤ id
  label?_eq : ∀ id, id < store.size → changed.label? (some id) = store.label? (some id)
  distinct : (branches.map Branch.id).Nodup

theorem Yields.nil (wellFormed : store.WellFormed) : Yields store [] store where
  wellFormed := wellFormed
  hosted _ member := absurd member List.not_mem_nil
  keeps := .refl _ _
  fresh _ member := absurd member List.not_mem_nil
  label?_eq _ _ := rfl
  distinct := List.nodup_nil

theorem Yields.cons
    {first : Branch} (becomes : Becomes store [] [] first changed) {rest : List Branch}
    {further : Store} (yields : Yields changed rest further) :
    Yields store (first :: rest) further where
  wellFormed := yields.wellFormed
  hosted branch member := by
    rcases List.mem_cons.mp member with rfl | later
    · exact becomes.hosted.of_keeps yields.keeps fun _ _ impossible => impossible
    · exact yields.hosted branch later
  keeps := (becomes.keeps.weaken fun id _ touched => by simp at touched).trans yields.keeps
    fun _ _ impossible => impossible
  fresh branch member id inside := by
    rcases List.mem_cons.mp member with rfl | later
    · exact (becomes.fresh id inside).resolve_left List.not_mem_nil
    · exact Nat.le_trans becomes.keeps.size_le (yields.fresh branch later id inside)
  label?_eq id bound := by
    rw [yields.label?_eq id (Nat.lt_of_lt_of_le bound becomes.keeps.size_le),
      becomes.label?_eq id bound]
  distinct := by
    rw [List.map_cons, List.nodup_cons]
    refine ⟨fun member => ?_, yields.distinct⟩
    obtain ⟨branch, later, same⟩ := List.mem_map.mp member
    have new := yields.fresh branch later _ (id_mem_ids branch)
    rw [same] at new
    exact absurd becomes.hosted.held.id_lt_size (Nat.not_lt_of_le new)

/-- A new node over detached branches of new nodes. -/
theorem Yields.run_mkNodeWith
    {branches : List Branch} (yields : Yields store branches changed) (payload : Payload)
    {role : Role} (isRole : role ∈ payload.kind.roles)
    (room : role.holdsMany = true ∨ branches.length ≤ 1) :
    ∃ further,
      (Edit.mkNodeWith payload (branches.map fun branch => (role, some branch.id))).run changed =
        (.ok changed.size, further) ∧
      Becomes store [] []
        (assemble changed.size payload (branches.map fun branch => (role, branch))) further := by
  have pieceIds : (branches.map fun branch => (role, branch)).map (fun piece => piece.2.id) =
      branches.map Branch.id := by
    rw [List.map_map]
    rfl
  have newIds : ∀ id ∈ idsOfAll (branches.map fun branch => (role, branch)), store.size ≤ id := by
    intro id member
    obtain ⟨piece, isPiece, inside⟩ := mem_idsOfAll.mp member
    obtain ⟨branch, isBranch, rfl⟩ := List.mem_map.mp isPiece
    exact yields.fresh branch isBranch id inside
  obtain ⟨further, run, becomes⟩ := Branch.run_mkNodeWith yields.wellFormed payload
    (branches.map fun branch => (role, branch))
    (by
      intro piece isPiece
      obtain ⟨branch, isBranch, rfl⟩ := List.mem_map.mp isPiece
      exact yields.hosted branch isBranch)
    (by rw [pieceIds]; exact yields.distinct)
    (by
      intro piece isPiece
      obtain ⟨branch, _, rfl⟩ := List.mem_map.mp isPiece
      exact isRole)
    (by
      intro other single
      by_cases same : role = other
      · have short := room.resolve_left (by simp [same, single])
        exact Nat.le_trans (List.length_filter_le _ _) (by simpa using short)
      · have empty : (branches.map fun branch => (role, branch)).filter
            (fun entry => entry.1 = other) = [] := by
          rw [List.filter_eq_nil_iff]
          intro entry member
          obtain ⟨branch, _, rfl⟩ := List.mem_map.mp member
          simpa using same
        rw [empty]
        exact Nat.zero_le 1)
  refine ⟨further, ?_, becomes.wellFormed, becomes.hosted, ?_, ?_, ?_⟩
  · rw [← run, List.map_map]
    rfl
  · refine (yields.keeps.weaken fun _ _ impossible => impossible.elim).trans becomes.keeps ?_
    rintro id bound (member | gap)
    · exact absurd bound (Nat.not_lt_of_le (newIds id member))
    · exact Or.inr gap
  · intro id member
    rcases becomes.fresh id member with inPieces | new
    · exact Or.inr (newIds id inPieces)
    · exact Or.inr (Nat.le_trans yields.keeps.size_le new)
  · intro id bound
    rw [becomes.label?_eq id (Nat.lt_of_lt_of_le bound yields.keeps.size_le),
      yields.label?_eq id bound]

/-- Annotating a new node with a type. -/
theorem Becomes.run_setType
    {id : NodeId} {payload : Payload} {annotations : Annotations} {children : List (Role × Branch)}
    (becomes : Becomes store [] [] (.node id payload annotations children) changed) (type : Ty) :
    ∃ further, (Edit.setType (some id) type).run changed = (.ok (), further) ∧
      Becomes store [] [] (.node id payload { annotations with type := some type } children)
        further := by
  have held := becomes.hosted.held
  have new : store.size ≤ id :=
    (becomes.fresh id List.mem_cons_self).resolve_left List.not_mem_nil
  obtain ⟨node, found, samePayload, sameAnnotations, listing⟩ := held.exists_node
  simp only [Branch.id, Branch.payload, Branch.annotations, Branch.children]
    at found samePayload sameAnnotations listing
  let change : Node → Node := fun node =>
    { node with annotations := { node.annotations with type := some type } }
  have elsewhere {other : NodeId} (different : other ≠ id) :
      (changed.update id change).node? (some other) = changed.node? (some other) := by
    rw [Store.node?_update, if_neg different]
  have notInChildren : ∀ entry ∈ children, id ∉ entry.2.ids := by
    intro entry member inside
    have nodup := held.ids_nodup becomes.wellFormed
    rw [ids_eq_cons, List.nodup_cons] at nodup
    exact nodup.1 (mem_idsOfAll.mpr ⟨entry, member, inside⟩)
  refine ⟨changed.update id change, rfl,
    becomes.wellFormed.annotate id fun annotations => { annotations with type := some type },
    ⟨?_, ?_⟩, ?_, becomes.fresh, ?_⟩
  · refine .node ?_ fun entry member => ?_
    · rw [Store.content?, Store.node?_update, if_pos rfl, found, ← samePayload, ← sameAnnotations,
        ← listing]
      rfl
    · refine (held.of_mem_children member).of_content_eq fun other inside => ?_
      rw [Store.content?, Store.content?, elsewhere]
      rintro rfl
      exact notInChildren entry member inside
  · have unplaced := becomes.hosted.place?_eq_none
    rw [within, Branch.id, Store.place?_update, if_pos rfl, found]
    rw [Branch.id, Store.place?_of_node? found] at unplaced
    exact unplaced
  · refine becomes.keeps.trans (Store.keeps_update changed id change) fun other bound same => ?_
    rw [same] at bound
    exact absurd bound (Nat.not_lt_of_le new)
  · intro other bound
    have different : other ≠ id := Nat.ne_of_lt (Nat.lt_of_lt_of_le bound new)
    rw [Store.label?, elsewhere different, ← Store.label?, becomes.label?_eq other bound]

/-! ## Writing a type -/

theorem IsWritten.setType
    {bound : Nat} {id : NodeId} {payload : Payload} {children : List (Role × Branch)}
    (types : Role × Branch → Ty) (new : bound ≤ id) (isSyntax : payload.kind.isTypeSyntax = true)
    (written : ∀ entry ∈ children, IsWritten bound (types entry) entry.2) (type : Ty) :
    IsWritten bound type (.node id payload { Annotations.empty with type := some type } children) :=
  .mk types new isSyntax written

/-- Annotates a new node over written types and puts array dimensions around it. -/
theorem run_finishType
    {id : NodeId} {payload : Payload} {children : List (Role × Branch)}
    (becomes : Becomes store [] [] (.node id payload .empty children) changed)
    (types : Role × Branch → Ty) (isSyntax : payload.kind.isTypeSyntax = true)
    (written : ∀ entry ∈ children, IsWritten store.size (types entry) entry.2)
    (type : Ty) (rank : Nat) :
    ∃ branch further, (Edit.finishType type rank id).run changed = (.ok branch.id, further) ∧
      Becomes store [] [] branch further ∧ IsWritten store.size (type.arrayOf rank) branch ∧
      branch.toTree = .finished type rank payload
        (payload.kind.roles.map fun role => ⟨role, treesIn role children⟩) := by
  have new : store.size ≤ id :=
    (becomes.fresh id List.mem_cons_self).resolve_left List.not_mem_nil
  obtain ⟨annotated, runSet, becomesSet⟩ := becomes.run_setType type
  have isWritten := IsWritten.setType types new isSyntax written type
  cases rank with
  | zero =>
      refine ⟨_, annotated, ?_, becomesSet, isWritten, rfl⟩
      rw [Edit.finishType, Edit.run_bind_ok runSet]
      rfl
  | succ rank =>
      have yields := Yields.cons becomesSet (Yields.nil becomesSet.wellFormed)
      obtain ⟨composed, runComposed, becomesComposed⟩ := yields.run_mkNodeWith
        (.composedType (rank + 1)) (by decide : Role.type ∈ NodeKind.composedType.roles)
        (Or.inr (by simp))
      obtain ⟨further, runLast, becomesLast⟩ :=
        becomesComposed.run_setType (type.arrayOf (rank + 1))
      have newComposed : store.size ≤ annotated.size := becomesSet.keeps.size_le
      refine ⟨_, further, ?_, becomesLast, IsWritten.setType (fun _ => type) newComposed rfl ?_ _,
        rfl⟩
      · have runComposed : (Edit.mkArrayType (some id) (rank + 1)).run annotated =
            (.ok annotated.size, composed) := runComposed
        rw [Edit.finishType, Edit.run_bind_ok runSet, if_neg (Nat.succ_ne_zero rank),
          Edit.run_bind_ok runComposed, Edit.run_bind_ok runLast]
        rfl
      · intro entry member
        cases List.mem_singleton.mp (mem_arrange.mp member).2
        exact isWritten

/-- The trees of arranged children of one role. -/
theorem treesIn_arrange
    {kind : NodeKind} {role : Role} (isRole : role ∈ kind.roles) (branches : List Branch) :
    treesIn role (arrange kind (branches.map fun branch => (role, branch))) =
      branches.map toTree := by
  rw [treesIn_eq_filter, filter_arrange isRole, ← treesIn_eq_filter]
  induction branches with
  | nil =>
      rfl
  | cons branch branches inductionHypothesis =>
      rw [List.map_cons, treesIn, if_pos rfl, inductionHypothesis, List.map_cons]

/-- A new node over new written branches. -/
theorem Yields.run_written
    {branches : List Branch} (yields : Yields store branches changed)
    (written : ∀ branch ∈ branches, ∃ type, IsWritten store.size type branch)
    {payload : Payload} {role : Role} (onlyRole : payload.kind.roles = [role])
    (room : role.holdsMany = true ∨ branches.length ≤ 1)
    (isSyntax : payload.kind.isTypeSyntax = true) (type : Ty) (rank : Nat) :
    ∃ branch further,
      (do
        let node ← Edit.mkNodeWith payload (branches.map fun branch => (role, some branch.id))
        Edit.finishType type rank node : Edit NodeId).run changed = (.ok branch.id, further) ∧
      Becomes store [] [] branch further ∧ IsWritten store.size (type.arrayOf rank) branch ∧
      branch.toTree = .finished type rank payload [⟨role, branches.map toTree⟩] := by
  have isRole : role ∈ payload.kind.roles := by
    rw [onlyRole]
    exact List.mem_singleton.mpr rfl
  obtain ⟨middle, run, becomes⟩ := yields.run_mkNodeWith payload isRole room
  have : Nonempty Ty := ⟨.null⟩
  choose! types typesWritten using written
  obtain ⟨branch, further, runFinish, becomesFinish, isWritten, spelled⟩ :=
    run_finishType becomes (fun entry => types entry.2) isSyntax (by
      intro entry member
      obtain ⟨inner, isInner, rfl⟩ := List.mem_map.mp (mem_arrange.mp member).2
      exact typesWritten inner isInner) type rank
  refine ⟨branch, further, ?_, becomesFinish, isWritten, ?_⟩
  · rw [Edit.run_bind_ok run, runFinish]
  · rw [spelled, onlyRole, List.map_singleton, treesIn_arrange isRole]

theorem Yields.run_named
    {branches : List Branch} (yields : Yields store branches changed)
    (written : ∀ branch ∈ branches, ∃ type, IsWritten store.size type branch)
    (name : String) (type : Ty) (rank : Nat) :
    ∃ branch further,
      (do
        let node ← Edit.mkNamedType name (branches.map fun branch => some branch.id)
        Edit.finishType type rank node : Edit NodeId).run changed = (.ok branch.id, further) ∧
      Becomes store [] [] branch further ∧ IsWritten store.size (type.arrayOf rank) branch ∧
      branch.toTree =
        .finished type rank (.simpleType name) [⟨.typeArgument, branches.map toTree⟩] := by
  have onlyRole : (Payload.simpleType name).kind.roles = [.typeArgument] := rfl
  obtain ⟨branch, further, run, rest⟩ :=
    yields.run_written written onlyRole (Or.inl rfl) rfl type rank
  refine ⟨branch, further, ?_, rest⟩
  rw [← run, Edit.mkNodeWith_eq, Edit.mkNamedType]
  simp only [Edit.attachAll_eq, List.map_map, Function.comp_def]

/-- A wildcard over one written bound. -/
theorem Becomes.run_bounded
    {bound : Branch} (becomes : Becomes store [] [] bound changed) {boundType : Ty}
    (written : IsWritten store.size boundType bound) (form : WildcardForm) (type : Ty)
    (rank : Nat) :
    ∃ branch further,
      (do
        let node ← Edit.mkWildcard form (some bound.id)
        Edit.finishType type rank node : Edit NodeId).run changed = (.ok branch.id, further) ∧
      Becomes store [] [] branch further ∧ IsWritten store.size (type.arrayOf rank) branch ∧
      branch.toTree = .finished type rank (.wildcardType form) [⟨.type, [bound.toTree]⟩] := by
  have yields := Yields.cons becomes (Yields.nil becomes.wellFormed)
  have onlyRole : (Payload.wildcardType form).kind.roles = [.type] := rfl
  refine yields.run_written ?_ onlyRole (Or.inr (Nat.le_refl 1)) rfl type rank
  intro branch member
  cases List.mem_singleton.mp member
  exact ⟨boundType, written⟩

theorem mkWildcard_unbounded :
    Edit.mkWildcard .unbounded none = Edit.mkNodeWith (.wildcardType .unbounded) [] := by
  have nothing (node : NodeId) : Edit.attachLast (some node) .type none = pure () := rfl
  rw [Edit.mkWildcard, Edit.mkNodeWith_eq, Edit.mkNodeWith_eq]
  simp only [Edit.attachEach, nothing, pure_bind]

mutual

/-- Writing a type adds a branch that spells the type. -/
theorem run_mkTypeWithin
    {store : Store} (catalog : Catalog) (type : Ty) (rank : Nat) (wellFormed : store.WellFormed) :
    ∃ branch changed, (Edit.mkTypeWithin catalog type rank).run store = (.ok branch.id, changed) ∧
      Becomes store [] [] branch changed ∧ IsWritten store.size (type.arrayOf rank) branch ∧
      branch.toTree = type.spelledWithin catalog rank := by
  have nil : ∀ branch ∈ ([] : List Branch), ∃ type, IsWritten store.size type branch :=
    fun _ member => absurd member List.not_mem_nil
  cases type with
  | array element =>
      rw [Edit.mkTypeWithin, Ty.arrayOf_array]
      exact run_mkTypeWithin catalog element (rank + 1) wellFormed
  | primitive kind =>
      rw [Edit.mkTypeWithin]
      exact (Yields.nil wellFormed).run_named nil _ _ rank
  | typeVariable id bound =>
      rw [Edit.mkTypeWithin]
      exact (Yields.nil wellFormed).run_named nil _ _ rank
  | null =>
      rw [Edit.mkTypeWithin]
      exact (Yields.nil wellFormed).run_named nil _ _ rank
  | unboundedWildcard =>
      rw [Edit.mkTypeWithin, mkWildcard_unbounded]
      exact (Yields.nil wellFormed).run_written nil rfl (Or.inr (Nat.zero_le 1)) rfl _ rank
  | classType definition arguments =>
      obtain ⟨branches, changed, run, yields, written, spelled⟩ :=
        run_mkTypes catalog arguments wellFormed
      rw [Edit.mkTypeWithin, Edit.run_bind_ok run, Ty.spelledWithin, ← spelled]
      exact yields.run_named written _ _ rank
  | upperWildcard upper =>
      obtain ⟨branch, changed, run, becomes, written, spelled⟩ :=
        run_mkTypeWithin catalog upper 0 wellFormed
      rw [Edit.mkTypeWithin, Edit.run_bind_ok run, Ty.spelledWithin, ← spelled]
      exact becomes.run_bounded written .upper _ rank
  | lowerWildcard lower =>
      obtain ⟨branch, changed, run, becomes, written, spelled⟩ :=
        run_mkTypeWithin catalog lower 0 wellFormed
      rw [Edit.mkTypeWithin, Edit.run_bind_ok run, Ty.spelledWithin, ← spelled]
      exact becomes.run_bounded written .lower _ rank

theorem run_mkTypes
    {store : Store} (catalog : Catalog) (types : List Ty) (wellFormed : store.WellFormed) :
    ∃ branches changed,
      (Edit.mkTypes catalog types).run store =
        (.ok (branches.map fun branch => some branch.id), changed) ∧
      Yields store branches changed ∧
      (∀ branch ∈ branches, ∃ type, IsWritten store.size type branch) ∧
      branches.map toTree = Ty.spelledAll catalog types := by
  cases types with
  | nil =>
      refine ⟨[], store, rfl, Yields.nil wellFormed, ?_, rfl⟩
      exact fun _ member => absurd member List.not_mem_nil
  | cons type types =>
      obtain ⟨first, middle, runFirst, becomes, isWritten, spelledFirst⟩ :=
        run_mkTypeWithin catalog type 0 wellFormed
      obtain ⟨rest, changed, runRest, yields, written, spelledRest⟩ :=
        run_mkTypes catalog types becomes.wellFormed
      refine ⟨first :: rest, changed, ?_, Yields.cons becomes yields, ?_, ?_⟩
      · rw [Edit.mkTypes, Edit.run_bind_ok runFirst, Edit.run_bind_ok runRest]
        rfl
      · intro branch member
        rcases List.mem_cons.mp member with rfl | later
        · exact ⟨_, isWritten⟩
        · obtain ⟨type, isWritten⟩ := written branch later
          exact ⟨type, isWritten.mono becomes.keeps.size_le⟩
      · rw [List.map_cons, spelledFirst, spelledRest, Ty.spelledAll]

end

/-- Writing a type in the form that may be written. -/
theorem run_mkType
    (catalog : Catalog) (options : TypeSyntaxOptions) (type : Ty) (wellFormed : store.WellFormed) :
    ∃ branch changed, (Edit.mkType catalog options type).run store = (.ok branch.id, changed) ∧
      Becomes store [] [] branch changed ∧
      IsWritten store.size (type.writable catalog options true) branch ∧
      branch.toTree = (type.writable catalog options true).spelledWithin catalog 0 :=
  run_mkTypeWithin catalog (type.writable catalog options true) 0 wellFormed

end Branch

end TypedJava
