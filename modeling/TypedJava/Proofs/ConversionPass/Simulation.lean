import TypedJava.Proofs.ConversionPass.Runs

/-! # The pass on branches

Every treatment of the pass, run on a hosted branch, makes of it what the relations say, provided
that treating a node again does so. By induction on the levels, the same holds of the whole pass. -/

namespace TypedJava

namespace Branch

variable {store : Store} {frames : List Frame} {frame : Frame} {context : Context} {bound : Nat}
  {mayFail : Prop} {again : Edit.Treatment} {relation : Option Frame → Branch → Branch → Prop}

/-- A new cast holds its operand in a gap. -/
theorem WrapsInCast.exists_frame
    {options : TypeSyntaxOptions} {type : Ty} {operand cast : Branch}
    (wraps : WrapsInCast context bound options type operand cast) :
    ∃ castFrame : Frame, cast = castFrame.fill operand ∧ castFrame.payload = .cast ∧
      castFrame.IsFirst .expression := by
  cases wraps with
  | @mk written cast isWritten isCast =>
      cases isCast with
      | @mk id left right new isLeft isRight =>
          refine ⟨⟨id, .cast, .empty, .expression, [(.leftParenthesis, left), (.type, written),
            (.rightParenthesis, right)], []⟩, rfl, rfl, rfl, ?_⟩
          intro entry member
          simp only [List.mem_cons, List.not_mem_nil, or_false] at member
          rcases member with rfl | rfl | rfl <;> simp

/-- After a first change, the rest of a treatment works on what has become of the branch. -/
theorem Becomes.reaches
    {source : List NodeId} {middle : Branch} {changed : Store}
    (becomes : Becomes store source frames middle changed) {edit : Edit Unit}
    {property weaker : Branch → Prop}
    (reaches : edit.Reaches mayFail changed fun _ final =>
      ∃ other, Becomes changed middle.ids frames other final ∧ property other)
    (implies : ∀ other, property other → weaker other) :
    edit.Reaches mayFail changed fun _ final =>
      ∃ other, Becomes store source frames other final ∧ weaker other := by
  refine reaches.imp ?_
  rintro _ final ⟨other, further, holds⟩
  exact ⟨other, becomes.trans further, implies other holds⟩

theorem Simulates.finishConditional
    (simulates : Simulates mayFail bound again relation) (wellFormed : store.WellFormed)
    (new : bound ≤ store.size) {conditional : Branch}
    (hosted : Hosted store (frame :: frames) conditional) (target : Ty) :
    (Edit.finishConditional context again (some conditional.id) target).Reaches mayFail store
      fun _ changed => ∃ other, Becomes store conditional.ids (frame :: frames) other changed ∧
        FinishesConditional context bound relation frame target conditional other := by
  have stays := Becomes.refl wellFormed hosted
  rw [Edit.finishConditional]
  by_cases narrow : target.primitiveKind?.any (·.width < 32) = true
  · rw [if_pos narrow]
    cases written : context.typeSyntax with
    | none =>
        exact .of_run (Edit.run_pure _ _) ⟨conditional, stays, .unwritten narrow written⟩
    | some options =>
        simp only
        obtain ⟨cast, wrapped, runWrap, becomesCast, wraps⟩ :=
          hosted.run_wrapInCast wellFormed new context options target
        have newer : bound ≤ wrapped.size := Nat.le_trans new becomesCast.keeps.size_le
        refine .bind_of_run runWrap (.bind_of_run (Edit.run_get _) ?_)
        rw [becomesCast.hosted.isNeedlessCast_eq becomesCast.wellFormed]
        by_cases needless : cast.isNeedlessCast context (some frame) = true
        · rw [List.head?_cons, if_pos needless]
          obtain ⟨castFrame, rfl, isCast, isFirst⟩ := wraps.exists_frame
          obtain ⟨dropped, runDrop, becomesOperand⟩ :=
            becomesCast.hosted.run_dropCast becomesCast.wellFormed isCast isFirst
          refine .bind_of_run runDrop ?_
          refine (becomesCast.trans becomesOperand).reaches
            (simulates dropped _ conditional becomesOperand.wellFormed
              (Nat.le_trans newer becomesOperand.keeps.size_le) becomesOperand.hosted) ?_
          exact fun other related => .needless narrow written wraps needless related
        · rw [List.head?_cons, if_neg needless]
          refine becomesCast.reaches
            (simulates wrapped _ cast becomesCast.wellFormed newer becomesCast.hosted) ?_
          exact fun other related =>
            .needed narrow written wraps (Bool.not_eq_true _ ▸ needless) related
  · rw [if_neg narrow]
    refine stays.reaches (simulates store _ conditional wellFormed new hosted) ?_
    exact fun other related => .wide (Bool.not_eq_true _ ▸ narrow) related

theorem Simulates.treatIllegalCast
    (simulates : Simulates mayFail bound again relation) (wellFormed : store.WellFormed)
    (new : bound ≤ store.size) {operand : Branch} (isFirst : frame.IsFirst .expression)
    (hosted : Hosted store frames (frame.fill operand)) {target source : Ty}
    (targetType : (frame.fill operand).typeIn? context .type = some target)
    (sourceType : operand.typeOf? context = some source)
    (illegal : context.catalog.conversion target source = .none) :
    (Edit.treatIllegalCast context again (some frame.parent) (some operand.id) target source).Reaches
      mayFail store fun _ changed => ∃ other,
        Becomes store (frame.fill operand).ids frames other changed ∧
        TreatsCast context bound relation frames.head? (frame.fill operand) other := by
  have stays := Becomes.refl wellFormed hosted
  have operandType : (frame.fill operand).typeIn? context .expression = some source := by
    rw [typeIn?_fill isFirst, sourceType]
  have operandChild := child?_fill isFirst operand
  have detached : (store.parent (some frame.parent)).isNone = frames.head?.isNone := by
    have place := hosted.place?_head wellFormed
    rw [Frame.id_fill] at place
    rw [Store.parent, place]
    cases frames.head? <;> rfl
  rw [Edit.treatIllegalCast]
  refine .bind_of_run (Edit.run_ask _ store) ?_
  rw [detached]
  by_cases number : becomesNumber context.catalog target source
  · have condition : (context.catalog.underlyingKind? source == some .boolean &&
        target.isNumeric) = true := by
      simpa [becomesNumber] using number
    rw [if_pos condition]
    cases frames with
    | nil =>
        exact .of_run (Edit.run_pure _ _)
          ⟨_, stays, .detached targetType operandType illegal rfl (Or.inl number)⟩
    | cons surrounding frames =>
        cases literals : truthLiterals? target with
        | none =>
            refine .bind_of_run (run_replaceByConditional_of_none literals _ _ store) ?_
            exact .of_run (Edit.run_pure _ _)
              ⟨_, stays, .noLiterals targetType operandType illegal number literals⟩
        | some pair =>
            obtain ⟨one, zero⟩ := pair
            obtain ⟨conditional, middle, run, becomes, isConditional⟩ :=
              Hosted.run_replaceByConditional [frame] operand hosted wellFormed new literals
            refine .bind_of_run run ?_
            refine becomes.reaches (simulates.finishConditional becomes.wellFormed
              (Nat.le_trans new becomes.keeps.size_le) becomes.hosted target) ?_
            exact fun other finishes => .toNumber targetType operandChild sourceType illegal rfl
              number literals isConditional finishes
  · have condition : ¬ (context.catalog.underlyingKind? source == some .boolean &&
        target.isNumeric) = true := by
      simpa [becomesNumber] using number
    rw [if_neg condition]
    cases filtered : (context.catalog.underlyingKind? source).filter fun kind =>
        target.isBoolean && kind.isNumeric with
    | some kind =>
        simp only
        have truth : becomesTruth context.catalog target source kind := by
          simpa [becomesTruth, Option.filter_eq_some_iff, and_comm] using filtered
        cases frames with
        | nil =>
            exact .of_run (Edit.run_pure _ _)
              ⟨_, stays, .detached targetType operandType illegal rfl (Or.inr ⟨kind, truth⟩)⟩
        | cons surrounding frames =>
            obtain ⟨comparison, middle, run, becomes, isComparison⟩ :=
              Hosted.run_replaceByComparison [frame] operand hosted wellFormed new kind
            refine .bind_of_run run ?_
            refine becomes.reaches (simulates middle _ comparison becomes.wellFormed
              (Nat.le_trans new becomes.keeps.size_le) becomes.hosted) ?_
            exact fun other related => .toTruth targetType operandChild sourceType illegal rfl truth
              isComparison related
    | none =>
        simp only
        have noTruth : ∀ kind, ¬ becomesTruth context.catalog target source kind := by
          rintro kind ⟨sameKind, numeric, boolean⟩
          simp [sameKind, numeric, boolean] at filtered
        cases written : context.typeSyntax with
        | none =>
            exact .of_run (Edit.run_pure _ _)
              ⟨_, stays, .unwritten targetType operandType illegal written⟩
        | some options =>
            have inside : Hosted store (frame :: frames) operand :=
              ⟨hosted.whole, hosted.unplaced⟩
            obtain ⟨wrapped, middle, run, becomes, wraps⟩ :=
              inside.run_wrapInCast wellFormed new context options context.catalog.objectType
            refine .bind_of_run run ?_
            refine (simulates middle _ wrapped becomes.wellFormed
              (Nat.le_trans new becomes.keeps.size_le) becomes.hosted).imp ?_
            rintro _ final ⟨other, further, related⟩
            exact ⟨frame.fill other, (becomes.trans further).outer, .detour isFirst targetType
              sourceType illegal number noTruth written wraps related⟩

theorem Simulates.treatCast
    (simulates : Simulates mayFail bound again relation) (wellFormed : store.WellFormed)
    (new : bound ≤ store.size) {cast : Branch} (hosted : Hosted store frames cast) :
    (Edit.treatCast context again (some cast.id)).Reaches mayFail store fun _ changed =>
      ∃ other, Becomes store cast.ids frames other changed ∧
        TreatsCast context bound relation frames.head? cast other := by
  have stays := Becomes.refl wellFormed hosted
  rw [Edit.treatCast]
  refine .bind_of_run (Edit.run_get store) ?_
  simp only
  rw [hosted.held.typeOf?_childIn wellFormed, hosted.held.typeOf?_childIn wellFormed]
  cases targetType : cast.typeIn? context .type with
  | none =>
      exact .of_run (Edit.run_pure _ _) ⟨_, stays, .unknown (Or.inl targetType)⟩
  | some target =>
      cases operandType : cast.typeIn? context .expression with
      | none =>
          exact .of_run (Edit.run_pure _ _) ⟨_, stays, .unknown (Or.inr operandType)⟩
      | some source =>
          simp only
          by_cases illegal : context.catalog.conversion target source = .none
          · rw [if_pos illegal]
            obtain ⟨frame, operand, rfl, isFirst, sourceType⟩ := exists_frame_of_typeIn? operandType
            have listed := hosted.held.childIn_eq wellFormed .expression
            rw [child?_fill isFirst, Option.map_some] at listed
            rw [listed]
            exact simulates.treatIllegalCast wellFormed new isFirst hosted targetType sourceType
              illegal
          · rw [if_neg illegal]
            exact .of_run (Edit.run_pure _ _) ⟨_, stays, .legal targetType operandType illegal⟩

/-- What is done to the value of an assignment after it has been cast. -/
def convertValue (context : Context) (again : Edit.Treatment) (target source : Ty)
    (value : NodeRef) : Edit Unit := do
  let sourceKind := context.catalog.underlyingKind? source
  if sourceKind == some .boolean && target.isNumeric then
    match ← Edit.replaceByConditional value value target with
    | none => return
    | some conditional => Edit.finishConditional context again conditional target
  else
    match sourceKind.filter fun kind => target.isBoolean && kind.isNumeric with
    | some kind => again (← Edit.replaceByComparison value value kind)
    | none => return

theorem Simulates.convertValue
    (simulates : Simulates mayFail bound again relation) (wellFormed : store.WellFormed)
    (new : bound ≤ store.size) {value cast : Branch} (isFirst : frame.IsFirst .right)
    (hosted : Hosted store (frame :: frames) cast) {target source : Ty}
    (leftType : (frame.fill value).typeIn? context .left = some target)
    (sourceType : value.typeOf? context = some source)
    (casts : CastsValue context bound target source value cast) :
    (Branch.convertValue context again target source (some cast.id)).Reaches mayFail store
      fun _ changed => ∃ other, Becomes store cast.ids (frame :: frames) other changed ∧
        TreatsAssignment context bound relation (frame.fill value) (frame.fill other) := by
  have stays := Becomes.refl wellFormed hosted
  rw [Branch.convertValue]
  by_cases number : becomesNumber context.catalog target source
  · have condition : (context.catalog.underlyingKind? source == some .boolean &&
        target.isNumeric) = true := by
      simpa [becomesNumber] using number
    rw [if_pos condition]
    cases literals : truthLiterals? target with
    | none =>
        refine .bind_of_run (run_replaceByConditional_of_none literals _ _ store) ?_
        exact .of_run (Edit.run_pure _ _)
          ⟨_, stays, .noLiterals isFirst leftType sourceType casts number literals⟩
    | some pair =>
        obtain ⟨one, zero⟩ := pair
        obtain ⟨conditional, replaced, run, becomes, isConditional⟩ :=
          Hosted.run_replaceByConditional [] cast hosted wellFormed new literals
        refine .bind_of_run run ?_
        refine becomes.reaches (simulates.finishConditional becomes.wellFormed
          (Nat.le_trans new becomes.keeps.size_le) becomes.hosted target) ?_
        exact fun other finishes => .toNumber isFirst leftType sourceType casts number literals
          isConditional finishes
  · have condition : ¬ (context.catalog.underlyingKind? source == some .boolean &&
        target.isNumeric) = true := by
      simpa [becomesNumber] using number
    rw [if_neg condition]
    cases filtered : (context.catalog.underlyingKind? source).filter fun kind =>
        target.isBoolean && kind.isNumeric with
    | some kind =>
        have truth : becomesTruth context.catalog target source kind := by
          simpa [becomesTruth, Option.filter_eq_some_iff, and_comm] using filtered
        obtain ⟨comparison, replaced, run, becomes, isComparison⟩ :=
          Hosted.run_replaceByComparison [] cast hosted wellFormed new kind
        refine .bind_of_run run ?_
        refine becomes.reaches (simulates replaced _ comparison becomes.wellFormed
          (Nat.le_trans new becomes.keeps.size_le) becomes.hosted) ?_
        exact fun other related => .toTruth isFirst leftType sourceType casts truth isComparison
          related
    | none =>
        have noTruth : ∀ kind, ¬ becomesTruth context.catalog target source kind := by
          rintro kind ⟨sameKind, numeric, boolean⟩
          simp [sameKind, numeric, boolean] at filtered
        exact .of_run (Edit.run_pure _ _)
          ⟨_, stays, .plain isFirst leftType sourceType casts number noTruth⟩

theorem Simulates.treatAssignment
    (simulates : Simulates mayFail bound again relation) (wellFormed : store.WellFormed)
    (new : bound ≤ store.size) {node : Branch} (hosted : Hosted store frames node) :
    (Edit.treatAssignment context again (some node.id)).Reaches mayFail store fun _ changed =>
      ∃ other, Becomes store node.ids frames other changed ∧
        TreatsAssignment context bound relation node other := by
  have stays := Becomes.refl wellFormed hosted
  rw [Edit.treatAssignment]
  refine .bind_of_run (Edit.run_get store) ?_
  simp only
  rw [hosted.held.typeOf?_childIn wellFormed, hosted.held.typeOf?_childIn wellFormed]
  cases leftType : node.typeIn? context .left with
  | none =>
      exact .of_run (Edit.run_pure _ _) ⟨_, stays, .unknown (Or.inl leftType)⟩
  | some target =>
      cases rightType : node.typeIn? context .right with
      | none =>
          exact .of_run (Edit.run_pure _ _) ⟨_, stays, .unknown (Or.inr rightType)⟩
      | some source =>
          obtain ⟨frame, value, rfl, isFirst, sourceType⟩ := exists_frame_of_typeIn? rightType
          have listed := hosted.held.childIn_eq wellFormed .right
          rw [child?_fill isFirst, Option.map_some] at listed
          rw [listed]
          have inside : Hosted store (frame :: frames) value := ⟨hosted.whole, hosted.unplaced⟩
          have kept (why : (context.catalog.conversion target source).isExplicit = false ∨
              context.typeSyntax = none) :
              (Branch.convertValue context again target source (some value.id)).Reaches mayFail
                store fun _ changed => ∃ other, Becomes store (frame.fill value).ids frames other
                  changed ∧ TreatsAssignment context bound relation (frame.fill value) other := by
            refine (simulates.convertValue wellFormed new isFirst inside leftType sourceType
              (.kept why)).imp ?_
            rintro _ final ⟨other, becomes, treats⟩
            exact ⟨frame.fill other, becomes.outer, treats⟩
          cases written : context.typeSyntax with
          | none =>
              exact kept (Or.inr written)
          | some options =>
              simp only
              by_cases needed : (context.catalog.conversion target source).isExplicit = true
              · rw [if_pos needed]
                obtain ⟨cast, middle, run, becomes, wraps⟩ := inside.run_wrapInCast wellFormed new
                  context { options with allowWildcards := false } target
                refine .bind_of_run run ?_
                refine (simulates.convertValue becomes.wellFormed
                  (Nat.le_trans new becomes.keeps.size_le) isFirst becomes.hosted leftType
                  sourceType (.cast needed written wraps)).imp ?_
                rintro _ final ⟨other, further, treats⟩
                exact ⟨frame.fill other, (becomes.trans further).outer, treats⟩
              · rw [if_neg needed]
                exact kept (Or.inl (Bool.not_eq_true _ ▸ needed))

theorem Simulates.treatAccess
    (simulates : Simulates mayFail bound again relation) (wellFormed : store.WellFormed)
    (new : bound ≤ store.size) {node : Branch} (hosted : Hosted store frames node) :
    (Edit.treatAccess context again (some node.id)).Reaches mayFail store fun _ changed =>
      ∃ other, Becomes store node.ids frames other changed ∧
        TreatsAccess context bound relation frames.head? node other := by
  have stays := Becomes.refl wellFormed hosted
  rw [Edit.treatAccess]
  refine .bind_of_run (Edit.run_get store) ?_
  simp only
  rw [hosted.accessedMember?_eq wellFormed, hosted.held.typeOf?_childIn wellFormed]
  cases accessed : node.accessedMember? frames.head? with
  | none =>
      exact .of_run (Edit.run_pure _ _) ⟨_, stays, .unknown (Or.inl accessed)⟩
  | some member =>
      cases targetType : node.typeIn? context .target with
      | none =>
          exact .of_run (Edit.run_pure _ _) ⟨_, stays, .unknown (Or.inr (Or.inl targetType))⟩
      | some receiver =>
          cases written : context.typeSyntax with
          | none =>
              exact .of_run (Edit.run_pure _ _) ⟨_, stays, .unknown (Or.inr (Or.inr written))⟩
          | some options =>
              simp only
              by_cases settled : context.catalog.isSubtype receiver member.declaringType = true
              · rw [if_pos settled]
                exact .of_run (Edit.run_pure _ _) ⟨_, stays, .settled accessed targetType settled⟩
              · rw [if_neg settled]
                obtain ⟨frame, target, rfl, isFirst, receiverType⟩ :=
                  exists_frame_of_typeIn? targetType
                have listed := hosted.held.childIn_eq wellFormed .target
                rw [child?_fill isFirst, Option.map_some] at listed
                rw [listed]
                have inside : Hosted store (frame :: frames) target :=
                  ⟨hosted.whole, hosted.unplaced⟩
                obtain ⟨cast, middle, run, becomes, wraps⟩ :=
                  inside.run_wrapInCast wellFormed new context options
                    (context.receiverCastType receiver member)
                refine .bind_of_run run ?_
                refine (simulates middle _ cast becomes.wellFormed
                  (Nat.le_trans new becomes.keeps.size_le) becomes.hosted).imp ?_
                rintro _ final ⟨other, further, related⟩
                exact ⟨frame.fill other, (becomes.trans further).outer, .wrapped isFirst accessed
                  receiverType written (Bool.not_eq_true _ ▸ settled) wraps related⟩

/-- Treating a node whose descent is known and keeps the node at the top. -/
theorem Simulates.treatNode
    (simulates : Simulates mayFail bound again relation) {descend : Edit.Treatment}
    {below : Branch → Branch → Prop}
    (descends : Simulates mayFail bound descend fun _ => below)
    (keepsTop : ∀ branch other, below branch other → other.id = branch.id) :
    Simulates mayFail bound (Edit.treatNode context descend again)
      (TreatsNode context bound relation below) := by
  intro store frames branch wellFormed new hosted
  have stays := Becomes.refl wellFormed hosted
  have further {treat : Edit.Treatment} {treats : Branch → Branch → Prop}
      (reaches : ∀ middle changed, Becomes store branch.ids frames middle changed →
        (treat (some middle.id)).Reaches mayFail changed fun _ final => ∃ other,
          Becomes changed middle.ids frames other final ∧ treats middle other) :
      (do
        descend (some branch.id)
        treat (some branch.id)).Reaches mayFail store fun _ final => ∃ middle other,
          Becomes store branch.ids frames other final ∧ below branch middle ∧
            treats middle other := by
    refine (descends store frames branch wellFormed new hosted).bind ?_
    rintro _ changed ⟨middle, becomes, related⟩
    rw [← keepsTop branch middle related]
    refine (reaches middle changed becomes).imp ?_
    rintro _ final ⟨other, next, treated⟩
    exact ⟨middle, other, becomes.trans next, related, treated⟩
  have below (isBelow : branch.payload.handling = .descend) :
      (descend (some branch.id)).Reaches mayFail store fun _ changed => ∃ other,
        Becomes store branch.ids frames other changed ∧
          TreatsNode context bound relation below frames.head? branch other := by
    refine (descends store frames branch wellFormed new hosted).imp ?_
    rintro _ changed ⟨other, becomes, related⟩
    exact ⟨other, becomes, .descend isBelow related⟩
  have newer {middle : Branch} {changed : Store}
      (becomes : Becomes store branch.ids frames middle changed) : bound ≤ changed.size :=
    Nat.le_trans new becomes.keeps.size_le
  rw [Edit.treatNode]
  refine .bind_of_run (Edit.run_get store) ?_
  rw [hosted.held.payload?_eq]
  cases payload : branch.payload with
  | memberReference name =>
      refine (further fun middle changed becomes => simulates.treatAccess becomes.wellFormed
        (newer becomes) becomes.hosted).imp ?_
      rintro _ final ⟨middle, other, becomes, related, treated⟩
      exact ⟨other, becomes, .access (by rw [payload]; rfl) related treated⟩
  | cast =>
      refine (further fun middle changed becomes => simulates.treatCast becomes.wellFormed
        (newer becomes) becomes.hosted).imp ?_
      rintro _ final ⟨middle, other, becomes, related, treated⟩
      exact ⟨other, becomes, .cast (by rw [payload]; rfl) related treated⟩
  | assignment operator =>
      by_cases simple : operator = .assign
      · subst simple
        refine (further fun middle changed becomes => simulates.treatAssignment
          becomes.wellFormed (newer becomes) becomes.hosted).imp ?_
        rintro _ final ⟨middle, other, becomes, related, treated⟩
        exact ⟨other, becomes, .assignment (by rw [payload]; rfl) related treated⟩
      · have isBelow : branch.payload.handling = .descend := by
          rw [payload, Payload.handling, if_neg simple]
        refine (below isBelow).bind fun _ changed reached => ?_
        rw [if_neg simple]
        exact .of_run (Edit.run_pure _ _) reached
  | _ =>
      first
      | exact below (by rw [payload]; rfl)
      | exact .of_run (Edit.run_pure _ _) ⟨branch, stays, .leave (by rw [payload]; rfl)⟩

end Branch

end TypedJava
